import PieceSquare.Proofs.Encoding.Exchange

set_option autoImplicit false

/-! # What each plane of a board marks

The 112 planes of a board, one by one and square by square (`Board.Drawing`). A piece plane marks
the squares where the side to move sees the men of one colour and kind. The castling planes depend
on the layout: a flag is filled when its right exists, a rook is marked on the first rank when it is
the mover's and on the last rank when it is the opponent's, whoever is to move. All numbers are 1
but the clock.

This leaves no choice of the planes (`Board.drawing_iff`). Formats without a castling layout have no
planes at all, which includes every format that is known by its number alone.
-/

namespace PieceSquare

/-! ## Planes by their place -/

namespace Planes

/-- The plane at a place carries a number, and it marks the squares that satisfy a condition and no
others. -/
def Marks (ps : Planes) (i : Nat) (value : Float32) (marked : Square → Prop) : Prop :=
  ∃ p, ps[i]? = some p ∧ p.value = value ∧ ∀ s, p.mask.contains s = true ↔ marked s

variable {ps : Planes} {i : Nat}

theorem marks_empty (h : ps[i]? = some .empty) : ps.Marks i 1 fun _ => False := by
  refine ⟨.empty, h, rfl, fun s => ?_⟩
  show Bitboard.contains 0 s = true ↔ False
  rw [Bitboard.contains_zero]
  decide

theorem marks_filled {value : Float32} (h : ps[i]? = some (.filled value)) :
    ps.Marks i value fun _ => True := by
  refine ⟨.filled value, h, rfl, fun s => ?_⟩
  show Bitboard.full.contains s = true ↔ True
  rw [Bitboard.contains_full]
  decide

theorem marks_flagPlane {condition : Bool} (h : ps[i]? = some (Board.flagPlane condition)) :
    ps.Marks i 1 fun _ => condition = true := by
  cases condition with
  | false => simpa using marks_empty h
  | true => simpa using marks_filled h

theorem marks_ofMask {mask : Bitboard} {marked : Square → Prop}
    (h : ps[i]? = some (.ofMask mask)) (hmarked : ∀ s, mask.contains s = true ↔ marked s) :
    ps.Marks i 1 marked :=
  ⟨.ofMask mask, h, rfl, hmarked⟩

/-- What a plane marks, and its number, leave no choice of the plane. -/
theorem Marks.unique {qs : Planes} {value : Float32} {marked : Square → Prop}
    (h : ps.Marks i value marked) (h' : qs.Marks i value marked) : ps[i]? = qs[i]? := by
  obtain ⟨⟨mask, v⟩, hp, rfl, hm⟩ := h
  obtain ⟨⟨mask', v'⟩, hq, rfl, hm'⟩ := h'
  obtain rfl : mask = mask' :=
    Bitboard.ext_contains fun s => Bool.eq_iff_iff.mpr ((hm s).trans (hm' s).symm)
  rw [hp, hq]

end Planes

/-! ## The planes of a board by their place -/

namespace Board

variable (b : Board) (layout : CastlingLayout)

theorem getElem?_planes_front {i : Nat} (h : i < 108) :
    (b.planes layout)[i]? = (b.front layout)[i]? := by
  rw [planes_eq, List.getElem?_append_left (by rw [length_front]; exact h)]

theorem getElem?_planes_back (i : Nat) : (b.planes layout)[109 + i]? = b.back[i]? := by
  rw [planes_eq, List.getElem?_append_right (by rw [length_front]; omega), length_front,
    show 109 + i - 108 = i + 1 by omega, List.getElem?_cons_succ]

theorem getElem?_planes_slot (side : Side) (kind : Kind) :
    (b.planes layout)[slot side kind]? = some (.ofMask (b.shown side kind)) := by
  have hslot : slot side kind < 108 := by cases side <;> cases kind <;> decide
  rw [getElem?_planes_front b layout hslot, front, Planes.getElem?_ofSides]

theorem getElem?_planes_unused {i : Nat} (h : 12 ≤ i) (h' : i ≤ 103) :
    (b.planes layout)[i]? = some .empty := by
  obtain ⟨j, rfl⟩ : ∃ j, i = Planes.pieceCount + j := Nat.exists_eq_add_of_le h
  have hj : j < 92 := by
    unfold Planes.pieceCount at h'
    omega
  rw [getElem?_planes_front b layout (by omega), front, Planes.getElem?_ofSides_add,
    List.getElem?_append_left (by rw [List.length_replicate]; exact hj),
    List.getElem?_replicate_of_lt hj]

theorem getElem?_planes_castling {i : Nat} (h : i < 4) :
    (b.planes layout)[104 + i]? = (b.castlingPlanes layout)[i]? := by
  rw [getElem?_planes_front b layout (by omega), front,
    show 104 + i = Planes.pieceCount + (92 + i) by unfold Planes.pieceCount; omega,
    Planes.getElem?_ofSides_add,
    List.getElem?_append_right (by rw [List.length_replicate]; omega), List.length_replicate,
    Nat.add_sub_cancel_left]

/-! ## What is marked -/

/-- The squares where the side to move sees a given man. -/
def Sees (man : Man) (t : Square) : Prop := ∃ s, b.view s = t ∧ b.men.man? s = some man

/-- The squares of the rooks with the given rights: the mover's on the first rank, the opponent's on
the last. -/
def RookMarks (own opponent : Option File) (s : Square) : Prop :=
  (s.rank = .one ∧ own = some s.file) ∨ (s.rank = .eight ∧ opponent = some s.file)

/-- A filled plane for each right, the mover's first. -/
structure FlagsDrawn (ps : Planes) : Prop where
  ownLong : ps.Marks 104 1 fun _ => (b.rights b.turn).long.isSome
  ownShort : ps.Marks 105 1 fun _ => (b.rights b.turn).short.isSome
  opponentLong : ps.Marks 106 1 fun _ => (b.rights b.turn.other).long.isSome
  opponentShort : ps.Marks 107 1 fun _ => (b.rights b.turn.other).short.isSome

/-- The rooks that may castle on their squares, those of the queen's side first. -/
structure RooksDrawn (ps : Planes) : Prop where
  long : ps.Marks 104 1 (RookMarks (b.rights b.turn).long (b.rights b.turn.other).long)
  short : ps.Marks 105 1 (RookMarks (b.rights b.turn).short (b.rights b.turn.other).short)
  unused : ∀ i, i = 106 ∨ i = 107 → ps.Marks i 1 fun _ => False

/-- The castling rights in each of the layouts. -/
def CastlingDrawn (ps : Planes) : CastlingLayout → Prop
  | .flags => b.FlagsDrawn ps
  | .rooks => b.RooksDrawn ps

/-- The planes show the board. -/
structure Drawing (ps : Planes) : Prop where
  length : ps.length = 112
  own : ∀ k : Kind, ps.Marks k.index 1 (b.Sees ⟨b.turn, k⟩)
  opponent : ∀ k : Kind, ps.Marks (6 + k.index) 1 (b.Sees ⟨b.turn.other, k⟩)
  unused : ∀ i, (12 ≤ i ∧ i ≤ 103) ∨ i = 110 → ps.Marks i 1 fun _ => False
  castling : b.CastlingDrawn ps layout
  turn : ps.Marks 108 1 fun _ => b.turn = .black
  clock : ps.Marks 109 (Float32.ofNat b.halfmoves.val) fun _ => True
  last : ps.Marks 111 1 fun _ => True

theorem contains_shown_iff_sees (side : Side) (kind : Kind) (t : Square) :
    (b.shown side kind).contains t = true ↔ b.Sees ⟨b.colorOf side, kind⟩ t := by
  rw [contains_shown, decide_eq_true_iff]
  constructor
  · intro h
    exact ⟨b.view t, b.view_view t, h⟩
  · rintro ⟨s, rfl, h⟩
    rwa [view_view]

theorem marks_slot (side : Side) (kind : Kind) :
    (b.planes layout).Marks (slot side kind) 1 (b.Sees ⟨b.colorOf side, kind⟩) :=
  Planes.marks_ofMask (b.getElem?_planes_slot layout side kind)
    (b.contains_shown_iff_sees side kind)

theorem contains_rookSquare_or (own opponent : Option File) (s : Square) :
    (rookSquare own .one ||| rookSquare opponent .eight).contains s = true ↔
      RookMarks own opponent s := by
  rw [Bitboard.contains_or, Bool.or_eq_true, contains_rookSquare, contains_rookSquare,
    decide_eq_true_iff, decide_eq_true_iff, RookMarks]
  simp only [and_comm, eq_comm]

theorem castlingDrawn_planes : b.CastlingDrawn (b.planes layout) layout := by
  have hplane := fun i (h : i < 4) => b.getElem?_planes_castling layout h
  cases layout with
  | flags =>
      constructor
      case ownLong => exact Planes.marks_flagPlane (hplane 0 (by decide))
      case ownShort => exact Planes.marks_flagPlane (hplane 1 (by decide))
      case opponentLong => exact Planes.marks_flagPlane (hplane 2 (by decide))
      case opponentShort => exact Planes.marks_flagPlane (hplane 3 (by decide))
  | rooks =>
      constructor
      case long =>
        exact Planes.marks_ofMask (hplane 0 (by decide)) (contains_rookSquare_or _ _)
      case short =>
        exact Planes.marks_ofMask (hplane 1 (by decide)) (contains_rookSquare_or _ _)
      case unused =>
        rintro i (rfl | rfl)
        · exact Planes.marks_empty (hplane 2 (by decide))
        · exact Planes.marks_empty (hplane 3 (by decide))

theorem drawing_planes : b.Drawing layout (b.planes layout) := by
  constructor
  case length => exact b.length_planes layout
  case own =>
    intro k
    have h := b.marks_slot layout .own k
    rwa [slot, Side.base, Nat.zero_add] at h
  case opponent =>
    intro k
    exact b.marks_slot layout .opponent k
  case unused =>
    rintro i (⟨h, h'⟩ | rfl)
    · exact Planes.marks_empty (b.getElem?_planes_unused layout h h')
    · exact Planes.marks_empty (b.getElem?_planes_back layout 1)
  case castling => exact b.castlingDrawn_planes layout
  case turn =>
    have h := Planes.marks_flagPlane (b.getElem?_turnPlane layout)
    simpa only [beq_iff_eq] using h
  case clock => exact Planes.marks_filled (b.getElem?_planes_back layout 0)
  case last => exact Planes.marks_filled (b.getElem?_planes_back layout 2)

variable {b layout}

theorem CastlingDrawn.unique {ps qs : Planes} (h : b.CastlingDrawn ps layout)
    (h' : b.CastlingDrawn qs layout) {i : Nat} (hi : 104 ≤ i) (hi' : i ≤ 107) :
    ps[i]? = qs[i]? := by
  have hplace : i = 104 ∨ i = 105 ∨ i = 106 ∨ i = 107 := by omega
  cases layout with
  | flags =>
      rcases hplace with rfl | rfl | rfl | rfl
      · exact h.ownLong.unique h'.ownLong
      · exact h.ownShort.unique h'.ownShort
      · exact h.opponentLong.unique h'.opponentLong
      · exact h.opponentShort.unique h'.opponentShort
  | rooks =>
      rcases hplace with rfl | rfl | hunused
      · exact h.long.unique h'.long
      · exact h.short.unique h'.short
      · exact (h.unused i hunused).unique (h'.unused i hunused)

/-- No plane is left open. -/
theorem Drawing.unique {ps qs : Planes} (h : b.Drawing layout ps) (h' : b.Drawing layout qs) :
    ps = qs := by
  refine List.ext_getElem? fun i => ?_
  have hplace : i < 6 ∨ (6 ≤ i ∧ i < 12) ∨ (12 ≤ i ∧ i ≤ 103 ∨ i = 110) ∨
      (104 ≤ i ∧ i ≤ 107) ∨ i = 108 ∨ i = 109 ∨ i = 111 ∨ 112 ≤ i := by omega
  rcases hplace with hi | ⟨hi, hi'⟩ | hi | ⟨hi, hi'⟩ | rfl | rfl | rfl | hi
  · obtain ⟨k, rfl⟩ := Kind.exists_index hi
    exact (h.own k).unique (h'.own k)
  · obtain ⟨j, rfl⟩ := Nat.exists_eq_add_of_le hi
    obtain ⟨k, rfl⟩ := Kind.exists_index (i := j) (by omega)
    exact (h.opponent k).unique (h'.opponent k)
  · exact (h.unused i hi).unique (h'.unused i hi)
  · exact h.castling.unique h'.castling hi hi'
  · exact h.turn.unique h'.turn
  · exact h.clock.unique h'.clock
  · exact h.last.unique h'.last
  · rw [List.getElem?_eq_none (by rw [h.length]; exact hi),
      List.getElem?_eq_none (by rw [h'.length]; exact hi)]

variable (b layout)

theorem drawing_iff (ps : Planes) : b.Drawing layout ps ↔ ps = b.planes layout := by
  constructor
  · intro h
    exact h.unique (b.drawing_planes layout)
  · rintro rfl
    exact b.drawing_planes layout

end Board

/-! ## Formats -/

theorem encode_of_not_mem (b : Board) {f : InputFormat} (hf : f ∉ supportedFormats) :
    b.encode f = .error (.unsupportedFormat f) := by
  unfold Board.encode
  cases hl : f.castlingLayout? with
  | none => rfl
  | some layout => exact absurd (mem_supportedFormats_iff.mpr ⟨layout, hl⟩) hf

theorem encode_eq_error_iff {b : Board} {f : InputFormat} {fault : EncodeFault} :
    b.encode f = .error fault ↔ f ∉ supportedFormats ∧ fault = .unsupportedFormat f := by
  refine eq_error_iff_of_cases (encode_of_not_mem b) fun h => ?_
  obtain ⟨layout, hl⟩ := mem_supportedFormats_iff.mp (not_not.mp h)
  exact ⟨_, encode_eq hl⟩

/-- In each of the two supported formats a board has the planes that show it, square by square, and
no others would do. In every other format it has none, and the fault names the format. The formats
that are known by their numbers alone are among these, whatever the number. -/
theorem encode_drawing (b : Board) :
    (∃ ps, b.encode .classical112 = .ok ps ∧ ∀ qs, b.Drawing .flags qs ↔ qs = ps) ∧
      (∃ ps, b.encode .classical112WithCastlingPlane = .ok ps ∧
        ∀ qs, b.Drawing .rooks qs ↔ qs = ps) ∧
      (∀ f, f ∉ supportedFormats → b.encode f = .error (.unsupportedFormat f)) ∧
      ∀ n, InputFormat.other n ∉ supportedFormats := by
  refine ⟨⟨_, encode_eq rfl, b.drawing_iff .flags⟩,
    ⟨_, encode_eq rfl, b.drawing_iff .rooks⟩, fun f hf => encode_of_not_mem b hf, fun n h => ?_⟩
  obtain ⟨layout, hl⟩ := mem_supportedFormats_iff.mp h
  cases hl

/-- The board where Black is to move and has lost a right, and a format whose number belongs to a
format with a name. -/
theorem encode_drawing_blackFirst :
    (∃ ps, Board.blackFirst.encode .classical112WithCastlingPlane = .ok ps ∧
      ∀ qs, Board.blackFirst.Drawing .rooks qs ↔ qs = ps) ∧
      InputFormat.other 1 ∉ supportedFormats ∧
      Board.blackFirst.encode (.other 1) = .error (.unsupportedFormat (.other 1)) := by
  obtain ⟨-, hrooks, hfault, hother⟩ := encode_drawing .blackFirst
  exact ⟨hrooks, hother 1, hfault (.other 1) (hother 1)⟩

end PieceSquare
