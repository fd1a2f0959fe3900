import PieceSquare.Proofs.Board.Fen
import PieceSquare.Proofs.Encoding.Layout

set_option autoImplicit false

/-! # What the planes of a board tell

The planes of a board tell the side to move, the men, the castling rights and the clock, and nothing
else (`Board.Alike`). The side to move comes first: it is read from plane 108, and only then are
the piece planes and the castling planes known to be turned the same way. The clock passes through
a binary32 number, which has room for it.

The two layouts tell castling rights in different ways. A flag tells that there is a right but not
its file, so the rooks must be known to stand in the corners. A marked rook tells its file, and own
and opponent's marks on one plane are kept apart by their ranks.
-/

namespace PieceSquare

/-- Two boards agree on everything but the en passant file and the number of the move. -/
structure Board.Alike (b b' : Board) : Prop where
  turn : b.turn = b'.turn
  men : ∀ s : Square, b.men.man? s = b'.men.man? s
  rights : ∀ c : Color, b.rights c = b'.rights c
  halfmoves : b.halfmoves = b'.halfmoves

/-- The rights of both players have their rooks in the corners. -/
def Board.OnCorners (b : Board) : Prop := ∀ c : Color, (b.rights c).OnCorners

/-! ## Planes -/

theorem flagPlane_injective : Function.Injective Board.flagPlane := by
  intro p q h
  cases p <;> cases q <;> first | rfl | exact absurd h (by decide +kernel)

/-- The clock is read back from its number. -/
theorem toNat_ofNat_clock : ∀ n : Clock, (Float32.ofNat n.val).toUInt8.toNat = n.val := by
  decide +kernel

theorem filled_clock_injective {n n' : Clock}
    (h : Plane.filled (Float32.ofNat n.val) = Plane.filled (Float32.ofNat n'.val)) : n = n' := by
  have hval : Float32.ofNat n.val = Float32.ofNat n'.val := congrArg Plane.value h
  refine Fin.ext ?_
  rw [← toNat_ofNat_clock n, hval, toNat_ofNat_clock]

theorem ofMask_injective : Function.Injective Plane.ofMask := fun _ _ h => congrArg Plane.mask h

/-! ## Men -/

/-- Where the side to move is the same, the men that it sees tell the men of the board. -/
theorem man?_of_shown {b b' : Board} (hturn : b.turn = b'.turn) (h : b.shown = b'.shown)
    (s : Square) : b.men.man? s = b'.men.man? s := by
  have hview : b'.view s = b.view s := by
    unfold Board.view
    rw [hturn]
  -- A man stands on a square if the plane of its side and kind marks the place where it is seen.
  refine Option.ext fun m => ?_
  obtain ⟨side, hside⟩ := b.exists_colorOf m.color
  have hside' : b'.colorOf side = m.color := by
    rw [← hside]
    cases side <;> simp only [Board.colorOf, hturn]
  have hcon : (b.shown side m.kind).contains (b.view s) =
      (b'.shown side m.kind).contains (b'.view s) := by
    rw [h, hview]
  rw [Board.contains_shown, Board.contains_shown, Board.view_view, Board.view_view, hside,
    hside'] at hcon
  exact decide_eq_decide.mp hcon

/-! ## Castling rights -/

/-- The marks of the own rooks and of the opponent's on one plane tell both of them. -/
theorem rookSquare_or_injective {own opponent own' opponent' : Option File}
    (h : Board.rookSquare own .one ||| Board.rookSquare opponent .eight =
      Board.rookSquare own' .one ||| Board.rookSquare opponent' .eight) :
    own = own' ∧ opponent = opponent' := by
  have hcon (s : Square) := congrArg (Bitboard.contains · s) h
  simp only [Bitboard.contains_or, contains_rookSquare] at hcon
  -- Only the own marks can be on the first rank, and only the opponent's on the last.
  refine ⟨Option.ext fun f => ?_, Option.ext fun f => ?_⟩
  · have hone := hcon (.of f .one)
    simpa [Rank.one, Rank.eight] using hone
  · have height := hcon (.of f .eight)
    simpa [Rank.one, Rank.eight] using height

/-- Rights of which the file is known are told apart by whether they exist. -/
theorem eq_of_isSome {f : File} {right right' : Option File} (h : ∀ g, right = some g → g = f)
    (h' : ∀ g, right' = some g → g = f) (hsome : right.isSome = right'.isSome) :
    right = right' := by
  cases right with
  | none =>
      cases right' with
      | none => rfl
      | some g => cases hsome
  | some g =>
      obtain ⟨g', rfl⟩ := Option.isSome_iff_exists.mp hsome.symm
      rw [h g rfl, h' g' rfl]

attribute [ext] Rights

/-- The castling planes tell the rights of the side to move and of the other side. -/
theorem rights_of_castlingPlanes {b b' : Board} (hb : b.OnCorners) (hb' : b'.OnCorners)
    {layout : CastlingLayout} (h : b.castlingPlanes layout = b'.castlingPlanes layout) :
    b.rights b.turn = b'.rights b'.turn ∧ b.rights b.turn.other = b'.rights b'.turn.other := by
  cases layout with
  | flags =>
      simp only [Board.castlingPlanes, List.cons.injEq, flagPlane_injective.eq_iff, and_true] at h
      obtain ⟨hol, hos, htl, hts⟩ := h
      exact ⟨Rights.ext (eq_of_isSome (hb _).long (hb' _).long hol)
          (eq_of_isSome (hb _).short (hb' _).short hos),
        Rights.ext (eq_of_isSome (hb _).long (hb' _).long htl)
          (eq_of_isSome (hb _).short (hb' _).short hts)⟩
  | rooks =>
      simp only [Board.castlingPlanes, List.cons.injEq, ofMask_injective.eq_iff, and_true] at h
      obtain ⟨hol, htl⟩ := rookSquare_or_injective h.1
      obtain ⟨hos, hts⟩ := rookSquare_or_injective h.2
      exact ⟨Rights.ext hol hos, Rights.ext htl hts⟩

/-! ## Boards -/

namespace Board.Alike

variable {b b' : Board} (h : b.Alike b')

include h

theorem men_eq : b.men = b'.men := Vector.ext fun i hi => h.men ⟨i, hi⟩

theorem shown_eq : b.shown = b'.shown := by
  unfold Board.shown Board.oriented Board.pieces Board.colorOf
  rw [h.turn, h.men_eq]

theorem planes_eq (layout : CastlingLayout) : b.planes layout = b'.planes layout := by
  have hcastling : b.castlingPlanes layout = b'.castlingPlanes layout := by
    cases layout <;> simp only [Board.castlingPlanes, h.rights, h.turn]
  rw [b.planes_eq, b'.planes_eq, Board.front, Board.front, Board.turnPlane, Board.turnPlane,
    Board.back, Board.back, h.shown_eq, hcastling, h.turn, h.halfmoves]

end Board.Alike

/-- Boards with the same planes are alike. -/
theorem alike_of_planes_eq {b b' : Board} (hb : b.OnCorners) (hb' : b'.OnCorners)
    {layout : CastlingLayout} (h : b.planes layout = b'.planes layout) : b.Alike b' := by
  rw [b.planes_eq, b'.planes_eq] at h
  obtain ⟨hfront, hrest⟩ :=
    List.append_inj h (by rw [Board.length_front, Board.length_front])
  obtain ⟨hturnPlane, hback⟩ := List.cons.inj hrest
  obtain ⟨hmasks, hfurther⟩ := (Planes.ofSides_inj _ _).mp hfront
  -- The turn comes first, as the men and the rights are drawn from the point of view of its side.
  have hturn : b.turn = b'.turn := by
    have hblack := flagPlane_injective hturnPlane
    cases ht : b.turn <;> cases ht' : b'.turn <;> simp [ht, ht'] at hblack ⊢
  have hshown : b.shown = b'.shown :=
    funext fun side => funext fun kind => ofMask_injective (congrFun (congrFun hmasks side) kind)
  obtain ⟨hown, hopponent⟩ :=
    rights_of_castlingPlanes hb hb' (List.append_cancel_left hfurther)
  constructor
  case turn => exact hturn
  case men => exact man?_of_shown hturn hshown
  case rights =>
    intro c
    rw [← hturn] at hown hopponent
    rcases Color.eq_or_eq_other b.turn c with rfl | rfl
    · exact hown
    · exact hopponent
  case halfmoves => exact filled_clock_injective (List.cons.inj hback).1

/-- Two boards whose rights are on the corners, as on every board that is read from a text, have
the same planes exactly if they agree on the side to move, the men, the rights and the clock. The
en passant file and the number of the move never matter. -/
theorem encode_eq_encode_iff {b b' : Board} (hb : b.OnCorners) (hb' : b'.OnCorners)
    {f : InputFormat} (hf : f ∈ supportedFormats) :
    (∃ ps ps', b.encode f = .ok ps ∧ b'.encode f = .ok ps' ∧ (ps = ps' ↔ b.Alike b')) ∧
      (∀ enPassant moveNumber,
        { b with enPassant := enPassant, moveNumber := moveNumber }.encode f = b.encode f) ∧
      ∀ text board, Board.ofText text = .ok board → board.OnCorners := by
  obtain ⟨layout, hl⟩ := mem_supportedFormats_iff.mp hf
  refine ⟨⟨_, _, encode_eq hl, encode_eq hl, ?_⟩, ?_, fun text board => onCorners_of_ofText⟩
  · constructor
    · intro h
      exact alike_of_planes_eq hb hb' h
    · intro h
      exact h.planes_eq layout
  · intro enPassant moveNumber
    rw [encode_eq hl, encode_eq hl]
    have halike : Board.Alike { b with enPassant := enPassant, moveNumber := moveNumber } b :=
      ⟨rfl, fun _ => rfl, fun c => by cases c <;> rfl, rfl⟩
    rw [halike.planes_eq]

theorem encode_start_eq_encode_iff :
    Board.start.OnCorners ∧ { Board.start with turn := .black }.OnCorners ∧
      InputFormat.classical112 ∈ supportedFormats ∧
      (∃ ps ps', Board.start.encode .classical112 = .ok ps ∧
        { Board.start with turn := .black }.encode .classical112 = .ok ps' ∧
        (ps = ps' ↔ Board.start.Alike { Board.start with turn := .black })) ∧
      (∀ enPassant moveNumber,
        { Board.start with enPassant := enPassant, moveNumber := moveNumber }.encode
          .classical112 = Board.start.encode .classical112) ∧
      ∀ text board, Board.ofText text = .ok board → board.OnCorners := by
  have hstart : Board.start.OnCorners := fun c => by
    cases c <;> exact ⟨by decide, by decide⟩
  have hblack : { Board.start with turn := .black }.OnCorners := fun c => by
    cases c <;> exact ⟨by decide, by decide⟩
  have hf : InputFormat.classical112 ∈ supportedFormats := by decide
  exact ⟨hstart, hblack, hf, encode_eq_encode_iff hstart hblack hf⟩

end PieceSquare
