import PieceSquare.Proofs.Encoding.Consistent

set_option autoImplicit false

/-! # The phase and the men

Four kinds of piece decide the phase (`Kind.decisive`). Taking such pieces away never takes a
position out of the endgame: what makes a side light is that there are few of them
(`Men.light_of_subset`).

The planes show the men of each player as one of the two sides, upside down where Black is to move.
Neither changes a number of men, so the phase of a board can be read off the numbers of men of the
two players (`Board.light_shown`), and nothing else of the board matters.
-/

namespace PieceSquare

/-- The kinds of piece that the phase depends on. -/
def Kind.decisive : List Kind := [.knight, .bishop, .rook, .queen]

/-! ## Fewer pieces -/

namespace Men

theorem phase_eq_endgame_iff {m : Men} :
    m.phase = .endgame ↔ ∀ side, m.light side = true := by
  unfold phase
  constructor
  · intro h side
    split at h
    · next hboth =>
        rw [Bool.and_eq_true] at hboth
        cases side with
        | own => exact hboth.1
        | opponent => exact hboth.2
    · cases h
  · intro h
    rw [h .own, h .opponent]
    rfl

theorem light_iff {m : Men} {side : Side} : m.light side = true ↔
    m side .queen = 0 ∨ m side .rook = 0 ∧ (m side .knight ||| m side .bishop).count ≤ 1 := by
  simp only [light, Bool.or_eq_true, Bool.and_eq_true, decide_eq_true_eq]

/-- A side stays light when it loses pieces. -/
theorem light_of_subset {m m' : Men} {side : Side}
    (hsub : ∀ kind ∈ Kind.decisive, (m' side kind).Subset (m side kind))
    (h : m.light side = true) : m'.light side = true := by
  have hknights := hsub .knight (by decide)
  have hbishops := hsub .bishop (by decide)
  have hrooks := hsub .rook (by decide)
  have hqueens := hsub .queen (by decide)
  rw [light_iff] at h ⊢
  rcases h with hq | ⟨hr, hminor⟩
  · exact .inl (hqueens.eq_zero hq)
  · exact .inr ⟨hrooks.eq_zero hr, (hknights.or hbishops).count_le.trans hminor⟩

end Men

/-- An endgame remains an endgame when knights, bishops, rooks and queens are taken away, whatever
happens to the other planes. -/
theorem phase_eq_endgame_of_subset {ps qs : Planes} (hps : Planes.pieceCount ≤ ps.length)
    (hqs : Planes.pieceCount ≤ qs.length)
    (hsub : ∀ side, ∀ kind ∈ Kind.decisive, (qs.men side kind).Subset (ps.men side kind))
    (h : ps.phase = .ok .endgame) : qs.phase = .ok .endgame := by
  rw [Planes.phase_eq hps] at h
  have hmen : ps.men.phase = .endgame := Except.ok.inj h
  rw [Men.phase_eq_endgame_iff] at hmen
  have hlight : qs.men.phase = .endgame :=
    Men.phase_eq_endgame_iff.mpr fun side => Men.light_of_subset (hsub side) (hmen side)
  rw [Planes.phase_eq hqs, hlight]

/-- A queen, a knight and a bishop, the last two on the same square, against two rooks. -/
def queenAgainstRooks : Planes :=
  .ofMasks
    (fun
      | .queen => 0x1
      | .knight => 0x8
      | .bishop => 0x8
      | _ => 0)
    (fun
      | .rook => 0x8100000000000000
      | _ => 0)

/-- The knight and some pawns against one of the rooks, with a further plane. -/
def knightAgainstRook : Planes :=
  Planes.ofMasks
    (fun
      | .knight => 0x8
      | .pawn => 0xff00
      | _ => 0)
    (fun
      | .rook => 0x8000000000000000
      | _ => 0) ++ [.filled 3]

theorem phase_eq_endgame_of_subset_knight :
    Planes.pieceCount ≤ queenAgainstRooks.length ∧ Planes.pieceCount ≤ knightAgainstRook.length ∧
      (∀ side, ∀ kind ∈ Kind.decisive,
        (knightAgainstRook.men side kind).Subset (queenAgainstRooks.men side kind)) ∧
      queenAgainstRooks.phase = .ok .endgame ∧ knightAgainstRook.phase = .ok .endgame := by
  have hsub : ∀ side, ∀ kind ∈ Kind.decisive,
      (knightAgainstRook.men side kind).Subset (queenAgainstRooks.men side kind) := by
    intro side
    cases side <;> decide +kernel
  have hphase : queenAgainstRooks.phase = .ok .endgame := by decide +kernel
  exact ⟨by decide, by decide, hsub, hphase,
    phase_eq_endgame_of_subset (by decide) (by decide) hsub hphase⟩

/-! ## The men on the board -/

/-- How many men of a colour and a kind there are. -/
def Placement.number (men : Placement) (man : Man) : Nat := men.count (some man)

/-- The squares on which a man stands are as many as there are such men. -/
theorem Placement.count_squaresOf (men : Placement) (man : Man) :
    (men.squaresOf man).count = men.number man := by
  have hcontains : (men.squaresOf man).contains = fun s => men.man? s == some man := by
    funext s
    rw [contains_squaresOf, beq_eq_decide]
  have hlist : Square.all.map men.man? = men.toList := by
    refine List.ext_getElem (by simp [Square.all]) fun i hi hi' => ?_
    simp only [Square.all, List.getElem_map, List.getElem_finRange, Vector.getElem_toList]
    rfl
  calc (men.squaresOf man).count = (Square.all.map men.man?).count (some man) := by
        rw [Bitboard.count, hcontains, List.count, List.countP_map]
        rfl
    _ = men.number man := by
        rw [hlist, number, Vector.count_toList]

namespace Board

variable (b : Board)

/-- Whether a player has no queen, or no rook and at most one knight or bishop. -/
def HasLight (c : Color) : Prop :=
  b.men.number ⟨c, .queen⟩ = 0 ∨
    b.men.number ⟨c, .rook⟩ = 0 ∧ b.men.number ⟨c, .knight⟩ + b.men.number ⟨c, .bishop⟩ ≤ 1

instance (c : Color) : Decidable (b.HasLight c) :=
  inferInstanceAs (Decidable (_ ∨ _ ∧ _))

theorem count_shown_eq_number (side : Side) (kind : Kind) :
    (b.shown side kind).count = b.men.number ⟨b.colorOf side, kind⟩ := by
  rw [count_shown, Placement.count_squaresOf]

/-- No square is shown for two kinds of men. -/
theorem contains_shown_of_ne {side : Side} {kind kind' : Kind} (hne : kind ≠ kind') {s : Square}
    (h : (b.shown side kind).contains s = true) : (b.shown side kind').contains s = false := by
  rw [contains_shown, decide_eq_true_iff] at h
  rw [contains_shown, h, decide_eq_false_iff_not]
  rintro ⟨⟩
  exact hne rfl

theorem light_shown (side : Side) :
    b.shown.light side = true ↔ b.HasLight (b.colorOf side) := by
  have hminor : (b.shown side .knight ||| b.shown side .bishop).count =
      b.men.number ⟨b.colorOf side, .knight⟩ + b.men.number ⟨b.colorOf side, .bishop⟩ := by
    rw [Bitboard.count_or fun s => b.contains_shown_of_ne (by decide), count_shown_eq_number,
      count_shown_eq_number]
  rw [Men.light_iff, hminor, ← Bitboard.count_eq_zero, ← Bitboard.count_eq_zero,
    count_shown_eq_number, count_shown_eq_number]
  rfl

/-- A board is in its endgame when both players are light, whoever is to move. -/
theorem phase_shown : b.shown.phase = .endgame ↔ ∀ c, b.HasLight c := by
  rw [Men.phase_eq_endgame_iff]
  constructor
  · intro h c
    obtain ⟨side, rfl⟩ := b.exists_colorOf c
    exact (b.light_shown side).mp (h side)
  · intro h side
    exact (b.light_shown side).mpr (h _)

theorem phase_planes (layout : CastlingLayout) : (b.planes layout).phase = .ok b.shown.phase := by
  rw [Planes.phase_eq (by rw [length_planes]; decide), men_planes]

end Board

theorem hasLight_congr {b b' : Board} {c : Color}
    (h : ∀ kind ∈ Kind.decisive, b'.men.number ⟨c, kind⟩ = b.men.number ⟨c, kind⟩) :
    b'.HasLight c ↔ b.HasLight c := by
  unfold Board.HasLight
  rw [h .queen (by decide), h .rook (by decide), h .knight (by decide), h .bishop (by decide)]

/-- The planes of a board in either format are those of an endgame exactly if both players are light,
so they have the phase of every board with as many knights, bishops, rooks and queens of each player,
whatever else the boards and the formats differ in. -/
theorem phase_encode {b : Board} {f : InputFormat} (hf : f ∈ supportedFormats) :
    ∃ ps phase, b.encode f = .ok ps ∧ ps.phase = .ok phase ∧
      (phase = .endgame ↔ b.HasLight .white ∧ b.HasLight .black) ∧
      ∀ b' : Board, ∀ f' ∈ supportedFormats,
        (∀ c, ∀ kind ∈ Kind.decisive, b'.men.number ⟨c, kind⟩ = b.men.number ⟨c, kind⟩) →
          ∃ ps', b'.encode f' = .ok ps' ∧ ps'.phase = .ok phase := by
  obtain ⟨layout, hlayout⟩ := mem_supportedFormats_iff.mp hf
  refine ⟨b.planes layout, b.shown.phase, encode_eq hlayout, b.phase_planes layout, ?_, ?_⟩
  · rw [b.phase_shown]
    constructor
    · intro h
      exact ⟨h .white, h .black⟩
    · rintro ⟨hwhite, hblack⟩ c
      cases c with
      | white => exact hwhite
      | black => exact hblack
  · intro b' f' hf' hnumber
    obtain ⟨layout', hlayout'⟩ := mem_supportedFormats_iff.mp hf'
    have hiff : b'.shown.phase = .endgame ↔ b.shown.phase = .endgame := by
      rw [b'.phase_shown, b.phase_shown]
      exact forall_congr' fun c => hasLight_congr (hnumber c)
    have hphase : b'.shown.phase = b.shown.phase := by
      cases h : b.shown.phase <;> cases h' : b'.shown.phase <;> simp_all
    exact ⟨_, encode_eq hlayout', by rw [b'.phase_planes, hphase]⟩

/-- White has a queen, a bishop and no rook, and Black, who is to move, two rooks and no queen. -/
def Board.queenEnding : Board where
  men := Placement.put (.put (.put (.put (.put (.put (Vector.replicate 64 none)
    (.of .a .one) (some ⟨.white, .king⟩)) (.of .d .one) (some ⟨.white, .queen⟩))
    (.of .c .one) (some ⟨.white, .bishop⟩)) (.of .h .eight) (some ⟨.black, .king⟩))
    (.of .f .eight) (some ⟨.black, .rook⟩)) (.of .g .eight) (some ⟨.black, .rook⟩)
  turn := .black
  whiteRights := .none
  blackRights := .none
  enPassant := none
  halfmoves := .zero
  moveNumber := 40

theorem phase_encode_queenEnding :
    InputFormat.classical112WithCastlingPlane ∈ supportedFormats ∧
      Board.queenEnding.HasLight .white ∧ Board.queenEnding.HasLight .black ∧
      ∃ ps, Board.queenEnding.encode .classical112WithCastlingPlane = .ok ps ∧
        ps.phase = .ok .endgame := by
  have hf : InputFormat.classical112WithCastlingPlane ∈ supportedFormats := by decide
  have hwhite : Board.queenEnding.HasLight .white := by decide +kernel
  have hblack : Board.queenEnding.HasLight .black := by decide +kernel
  obtain ⟨ps, phase, hps, hphase, hiff, -⟩ := phase_encode (b := .queenEnding) hf
  rw [hiff.mpr ⟨hwhite, hblack⟩] at hphase
  exact ⟨hf, hwhite, hblack, ps, hps, hphase⟩

end PieceSquare
