import PieceSquare.Proofs.Binary32.Units
import PieceSquare.Proofs.Board.Fen
import PieceSquare.Proofs.Encoding.Drawing

set_option autoImplicit false

/-! # Planes that agree with one another

Planes that are read from a text are consistent (`Planes.Consistent`), and an evaluation can rely on
it: no two men share a square, each side has one king, at most sixteen men and at most eight pawns,
none of them on the first or last rank, the clock is a whole number up to 100, and where the
castling planes show a right, the piece planes show the king and the rook in their places.

Reading a text demands all this of the board, in terms of colours and of the squares of the board.
The planes show it in terms of sides and of the squares as the side to move sees them, where the own
back rank is the first and the opponent's the last, whoever is to move (`Board.view_backRank`).
-/

namespace PieceSquare

/-! ## Wings -/

/-- The two wings of the board, on each of which there is a rook to castle with. -/
inductive Wing where
  | queenside
  | kingside

namespace Wing

/-- The file of the rook that has not moved. -/
def corner : Wing → File
  | queenside => .a
  | kingside => .h

/-- Whether a king is strictly on the inner side of the rook of a wing. -/
def Inside : Wing → (rook king : File) → Prop
  | queenside, rook, king => rook < king
  | kingside, rook, king => king < rook

end Wing

/-- The right to castle on a wing. -/
def Rights.on (r : Rights) : Wing → Option File
  | .queenside => r.long
  | .kingside => r.short

theorem Rights.OnCorners.eq_corner {r : Rights} (h : r.OnCorners) {wing : Wing} {f : File}
    (hf : r.on wing = some f) : f = wing.corner := by
  cases wing with
  | queenside => exact h.long f hf
  | kingside => exact h.short f hf

/-! ## Boards -/

theorem Placement.man?_of_king? {men : Placement} {c : Color} {s : Square}
    (h : men.king? c = some s) : men.man? s = some ⟨c, .king⟩ := by
  simpa using List.find?_some h

theorem Placement.contains_squaresOf (men : Placement) (man : Man) (s : Square) :
    (men.squaresOf man).contains s = decide (men.man? s = some man) :=
  Bitboard.contains_ofPred _ s

namespace Fen

/-- What is demanded of the men of a player. -/
theorem sideOk_iff {men : Placement} {c : Color} :
    sideOk men c = true ↔ (men.squaresOfColor c).count ≤ 16 ∧
      (men.squaresOf ⟨c, .king⟩).count = 1 ∧ (men.squaresOf ⟨c, .pawn⟩).count ≤ 8 ∧
      ∀ s, men.man? s = some ⟨c, .pawn⟩ → s.rank ≠ .one ∧ s.rank ≠ .eight := by
  simp only [sideOk, Bool.and_eq_true, decide_eq_true_eq, List.all_eq_true, Bitboard.mem_squares,
    Placement.contains_squaresOf, bne_iff_ne, ne_eq, and_assoc]

theorem sideOk_of_menOk {men : Placement} {turn : Color} (h : menOk men turn = true) (c : Color) :
    sideOk men c = true := by
  simp only [menOk, Bool.and_eq_true] at h
  cases c with
  | white => exact h.1.1.1
  | black => exact h.1.1.2

/-- A right to castle tells where the rook and the king are. -/
theorem men_of_rightsOk {men : Placement} {c : Color} {r : Rights} (h : rightsOk men c r = true)
    {wing : Wing} {f : File} (hf : r.on wing = some f) :
    men.man? (.of f c.backRank) = some ⟨c, .rook⟩ ∧
      ∃ g, wing.Inside f g ∧ men.man? (.of g c.backRank) = some ⟨c, .king⟩ := by
  unfold rightsOk at h
  cases hk : men.king? c with
  | none => cases wing <;> simp_all [Rights.on]
  | some k =>
      have hking := Placement.man?_of_king? hk
      cases wing with
      | queenside =>
          have hlong : r.long = some f := hf
          simp only [hk, hlong, Option.all_some, Bool.and_eq_true, decide_eq_true_eq] at h
          obtain ⟨⟨⟨hrank, hinside⟩, hrook⟩, -⟩ := h
          refine ⟨hrook, k.file, hinside, ?_⟩
          rwa [← hrank, Square.of_file_rank]
      | kingside =>
          have hshort : r.short = some f := hf
          simp only [hk, hshort, Option.all_some, Bool.and_eq_true, decide_eq_true_eq] at h
          obtain ⟨-, ⟨hrank, hinside⟩, hrook⟩ := h
          refine ⟨hrook, k.file, hinside, ?_⟩
          rwa [← hrank, Square.of_file_rank]

end Fen

/-- A man of a colour is of exactly one kind. -/
theorem sum_kinds_eq (man : Option Man) (c : Color) :
    (Kind.all.map fun k => if decide (man = some ⟨c, k⟩) then 1 else 0).sum =
      if decide (man.map (·.color) = some c) then 1 else 0 := by
  cases man with
  | none => rfl
  | some m =>
      obtain ⟨d, k⟩ := m
      cases c <;> cases d <;> cases k <;> rfl

/-- The men of a player can be counted kind by kind. -/
theorem sum_count_squaresOf (men : Placement) (c : Color) :
    (Kind.all.map fun k => (men.squaresOf ⟨c, k⟩).count).sum = (men.squaresOfColor c).count := by
  have hcolor : (men.squaresOfColor c).contains =
      fun s => decide ((men.man? s).map (·.color) = some c) :=
    funext fun s => Bitboard.contains_ofPred _ s
  have hkind : ∀ k, (men.squaresOf ⟨c, k⟩).contains =
      fun s => decide (men.man? s = some ⟨c, k⟩) :=
    fun k => funext fun s => men.contains_squaresOf ⟨c, k⟩ s
  simp only [Bitboard.count, hcolor, hkind]
  induction Square.all with
  | nil => rfl
  | cons s l ih =>
      simp only [List.countP_cons, List.sum_map_add, ih]
      rw [sum_kinds_eq]

/-! ## Men as the side to move sees them -/

/-- The rank on which the side to move sees the back rank of a side. -/
def Side.backRank : Side → Rank
  | .own => .one
  | .opponent => .eight

namespace Board

variable (b : Board)

theorem view_backRank (side : Side) (f : File) :
    b.view (.of f side.backRank) = .of f (b.colorOf side).backRank := by
  unfold view colorOf
  cases b.turn <;> cases side <;>
    simp only [Square.flip, Square.file_of, Square.rank_of] <;> rfl

/-- The two outer ranks are the same from both sides of the board. -/
theorem rank_view (s : Square) :
    ((b.view s).rank = Rank.one ∨ (b.view s).rank = Rank.eight) ↔
      (s.rank = Rank.one ∨ s.rank = Rank.eight) := by
  unfold view
  cases b.turn with
  | white => exact Iff.rfl
  | black =>
      have hrev : ∀ r : Rank, (r.rev = Rank.one ∨ r.rev = Rank.eight) ↔
          (r = Rank.one ∨ r = Rank.eight) := by decide
      show (s.flip.rank = Rank.one ∨ s.flip.rank = Rank.eight) ↔ _
      rw [Square.flip, Square.rank_of, hrev]

theorem count_shown (side : Side) (kind : Kind) :
    (b.shown side kind).count = (b.men.squaresOf ⟨b.colorOf side, kind⟩).count := by
  unfold shown oriented pieces
  cases b.turn with
  | white => rfl
  | black => exact Bitboard.count_flip _

end Board

namespace Men

variable (m : Men)

/-- The men of a side are in the places for castling on a wing: its rook in the corner, and its king
on the same rank, strictly inside. -/
def CanCastle (side : Side) (wing : Wing) : Prop :=
  (m side .rook).contains (.of wing.corner side.backRank) = true ∧
    ∃ f, wing.Inside wing.corner f ∧ (m side .king).contains (.of f side.backRank) = true

end Men

theorem Board.canCastle {b : Board} (h : Fen.Possible b) {side : Side} {wing : Wing}
    (hright : ((b.rights (b.colorOf side)).on wing).isSome = true) :
    b.shown.CanCastle side wing := by
  obtain ⟨f, hf⟩ := Option.isSome_iff_exists.mp hright
  obtain rfl := (h.corners _).eq_corner hf
  obtain ⟨hrook, g, hinside, hking⟩ := Fen.men_of_rightsOk (h.rights _) hf
  constructor
  · rw [contains_shown, view_backRank, hrook, decide_eq_true_iff]
  · refine ⟨g, hinside, ?_⟩
    rw [contains_shown, view_backRank, hking, decide_eq_true_iff]

/-! ## Planes -/

/-- The place of the plane that shows a right as a flag. -/
def flagSlot : Side → Wing → Nat
  | .own, .queenside => 104
  | .own, .kingside => 105
  | .opponent, .queenside => 106
  | .opponent, .kingside => 107

/-- The place of the plane that marks the rooks of a wing. -/
def rookSlot : Wing → Nat
  | .queenside => 104
  | .kingside => 105

namespace Planes

/-- Flags are filled or empty, and none is filled without the king and the rook of its right. -/
def FlagsConsistent (ps : Planes) : Prop :=
  ∀ side wing, ps[flagSlot side wing]? = some .empty ∨
    ps[flagSlot side wing]? = some (.filled 1) ∧ ps.men.CanCastle side wing

/-- Only the two corners of a wing can be marked on its plane, and none is without the king and the
rook of its right. -/
structure RooksConsistent (ps : Planes) : Prop where
  marks : ∀ wing, ∃ p, ps[rookSlot wing]? = some p ∧ ∀ s, p.mask.contains s = true →
    ∃ side : Side, s = .of wing.corner side.backRank ∧ ps.men.CanCastle side wing
  unused : ∀ i, i = 106 ∨ i = 107 → ps[i]? = some .empty

/-- The castling planes agree with the piece planes. -/
def CastlingConsistent (ps : Planes) : CastlingLayout → Prop
  | .flags => ps.FlagsConsistent
  | .rooks => ps.RooksConsistent

/-- What the planes of every position have in common. -/
structure Consistent (ps : Planes) (layout : CastlingLayout) : Prop where
  length : ps.length = 112
  disjoint : ∀ side kind side' kind' s, (ps.men side kind).contains s = true →
    (ps.men side' kind').contains s = true → side = side' ∧ kind = kind'
  king : ∀ side, (ps.men side .king).count = 1
  men : ∀ side, (Kind.all.map fun k => (ps.men side k).count).sum ≤ 16
  pawns : ∀ side, (ps.men side .pawn).count ≤ 8
  pawnRanks : ∀ side s, (ps.men side .pawn).contains s = true → s.rank ≠ .one ∧ s.rank ≠ .eight
  clock : ∃ v, ps[109]? = some (.filled v) ∧ v.isFinite = true ∧
    ∃ n : Nat, n ≤ 100 ∧ Binary32.units v = n * Binary32.units 1
  castling : ps.CastlingConsistent layout

end Planes

theorem units_ofNat_clock : ∀ n : Clock, (Float32.ofNat n.val).isFinite = true ∧
    Binary32.units (Float32.ofNat n.val) = n.val * Binary32.units 1 := by
  decide +kernel

namespace Board

variable {b : Board}

theorem colorOf_injective : Function.Injective b.colorOf := by
  intro side side' h
  unfold colorOf at h
  cases side <;> cases side' <;> first | rfl | (cases ht : b.turn <;> rw [ht] at h <;> cases h)

theorem flagsConsistent (h : Fen.Possible b) : (b.planes .flags).FlagsConsistent := by
  intro side wing
  have hplane : (b.planes .flags)[flagSlot side wing]? =
      some (flagPlane ((b.rights (b.colorOf side)).on wing).isSome) := by
    have hentry := fun i (hi : i < 4) => b.getElem?_planes_castling .flags hi
    cases side <;> cases wing
    · exact hentry 0 (by decide)
    · exact hentry 1 (by decide)
    · exact hentry 2 (by decide)
    · exact hentry 3 (by decide)
  rw [hplane, men_planes]
  cases hright : ((b.rights (b.colorOf side)).on wing).isSome with
  | false => exact .inl rfl
  | true => exact .inr ⟨rfl, canCastle h hright⟩

theorem exists_of_rookMarks (h : Fen.Possible b) {wing : Wing} {s : Square}
    (hs : RookMarks ((b.rights b.turn).on wing) ((b.rights b.turn.other).on wing) s) :
    ∃ side : Side, s = .of wing.corner side.backRank ∧ b.shown.CanCastle side wing := by
  have hcorner (c : Color) (hf : (b.rights c).on wing = some s.file) :
      s = .of wing.corner s.rank := by
    rw [← (h.corners c).eq_corner hf, Square.of_file_rank]
  rcases hs with ⟨hrank, hown⟩ | ⟨hrank, hopponent⟩
  · have hsquare := (hcorner _ hown).trans (congrArg (Square.of wing.corner) hrank)
    refine ⟨.own, hsquare, canCastle h ?_⟩
    exact Option.isSome_iff_exists.mpr ⟨_, hown⟩
  · have hsquare := (hcorner _ hopponent).trans (congrArg (Square.of wing.corner) hrank)
    refine ⟨.opponent, hsquare, canCastle h ?_⟩
    exact Option.isSome_iff_exists.mpr ⟨_, hopponent⟩

theorem rooksConsistent (h : Fen.Possible b) : (b.planes .rooks).RooksConsistent := by
  have hdrawn : b.RooksDrawn (b.planes .rooks) := b.castlingDrawn_planes .rooks
  constructor
  case marks =>
    intro wing
    rw [men_planes]
    cases wing with
    | queenside =>
        obtain ⟨p, hp, -, hmarks⟩ := hdrawn.long
        exact ⟨p, hp, fun s hs => exists_of_rookMarks h ((hmarks s).mp hs)⟩
    | kingside =>
        obtain ⟨p, hp, -, hmarks⟩ := hdrawn.short
        exact ⟨p, hp, fun s hs => exists_of_rookMarks h ((hmarks s).mp hs)⟩
  case unused =>
    rintro i (rfl | rfl)
    · exact b.getElem?_planes_castling .rooks (i := 2) (by decide)
    · exact b.getElem?_planes_castling .rooks (i := 3) (by decide)

/-- The planes of a possible board are consistent. -/
theorem consistent_planes (h : Fen.Possible b) (layout : CastlingLayout) :
    (b.planes layout).Consistent layout := by
  have hside (side : Side) :=
    Fen.sideOk_iff.mp (Fen.sideOk_of_menOk h.men (b.colorOf side))
  constructor
  case length => exact b.length_planes layout
  case disjoint =>
    intro side kind side' kind' s hs hs'
    rw [men_planes, contains_shown, decide_eq_true_iff] at hs hs'
    -- There is one man at most on a square of the board.
    rw [hs, Option.some.injEq, Man.mk.injEq] at hs'
    exact ⟨colorOf_injective hs'.1, hs'.2⟩
  case king =>
    intro side
    rw [men_planes, count_shown]
    exact (hside side).2.1
  case men =>
    intro side
    simp only [men_planes, count_shown]
    rw [sum_count_squaresOf]
    exact (hside side).1
  case pawns =>
    intro side
    rw [men_planes, count_shown]
    exact (hside side).2.2.1
  case pawnRanks =>
    intro side s hs
    rw [men_planes, contains_shown, decide_eq_true_iff] at hs
    have hrank := (hside side).2.2.2 _ hs
    rwa [← not_or, rank_view, not_or] at hrank
  case clock =>
    obtain ⟨hfin, hunits⟩ := units_ofNat_clock b.halfmoves
    exact ⟨_, b.getElem?_planes_back layout 0, hfin, b.halfmoves.val, by omega, hunits⟩
  case castling =>
    cases layout with
    | flags => exact flagsConsistent h
    | rooks => exact rooksConsistent h

end Board

/-! ## Texts -/

/-- A text has planes exactly if a board can be read from it and the format is supported, and they
are those of the board. -/
theorem encodeText_eq_ok_iff {fen : String} {f : InputFormat} {ps : Planes} :
    encodeText fen f = .ok ps ↔ ∃ b layout, Board.ofText fen = .ok b ∧
      f.castlingLayout? = some layout ∧ ps = b.planes layout := by
  unfold encodeText
  rw [bind_eq_ok_iff]
  constructor
  · rintro ⟨b, hb, h⟩
    unfold Board.encode at h
    cases hl : f.castlingLayout? with
    | none => rw [hl] at h; cases h
    | some layout =>
        rw [hl] at h
        cases h
        exact ⟨b, layout, hb, rfl, rfl⟩
  · rintro ⟨b, layout, hb, hl, rfl⟩
    exact ⟨b, hb, encode_eq hl⟩

/-- Whatever the text and the format, the planes that are read from the text in the format are
consistent. -/
theorem encodeText_consistent {fen : String} {f : InputFormat} {ps : Planes}
    (h : encodeText fen f = .ok ps) :
    f = .classical112 ∧ ps.Consistent .flags ∨
      f = .classical112WithCastlingPlane ∧ ps.Consistent .rooks := by
  obtain ⟨b, layout, hb, hl, rfl⟩ := encodeText_eq_ok_iff.mp h
  have hconsistent := Board.consistent_planes (Fen.possible_of_ofText hb) layout
  cases f <;> cases hl
  · exact .inl ⟨rfl, hconsistent⟩
  · exact .inr ⟨rfl, hconsistent⟩

/-- A position with Black to move and a right on each wing, with blanks around its text. -/
def castlingText : String := " r3k2r/8/8/8/8/8/8/R3K2R b Kq - 3 10\n"

theorem encodeText_consistent_castlingText :
    ∃ ps, encodeText castlingText .classical112WithCastlingPlane = .ok ps ∧
      ps.Consistent .rooks := by
  obtain ⟨ps, h⟩ : ∃ ps, encodeText castlingText .classical112WithCastlingPlane = .ok ps :=
    exists_eq_ok_of_isSome (by decide +kernel)
  rcases encodeText_consistent h with ⟨hf, -⟩ | ⟨-, hconsistent⟩
  · cases hf
  · exact ⟨ps, h, hconsistent⟩

end PieceSquare
