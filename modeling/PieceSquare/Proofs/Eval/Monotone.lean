import PieceSquare.Proofs.Binary32.Monotone
import PieceSquare.Proofs.Eval.Phase
import PieceSquare.Proofs.Eval.Range

set_option autoImplicit false

/-! # Extra material

A further piece adds a weight in the middle of a sum, and all later additions round differently. But
rounding keeps the order of numbers, so the later sums stay at least as large as they were
(`AtMost.foldl_filter`), and the curve keeps their order in turn. Hence a piece is never a
disadvantage to its owner, as its weight is not negative. This is so as long as the piece does not
change the phase, as that would change the weights of both kings; and not for kings, some weights of
which are negative.
-/

namespace PieceSquare

open Binary32

/-! ## Sums at most as large -/

/-- Two ordinary numbers of magnitude at most `b`, the first of which is not the larger one. -/
structure AtMost (b : Nat) (x y : Float32) : Prop where
  left : Ordinary x
  right : Ordinary y
  within : Within b x
  within_right : Within b y
  units_le : units x ≤ units y

namespace AtMost

variable {a b : Nat} {x y t u : Float32}

theorem refl (ho : Ordinary x) (h : Within b x) : AtMost b x x := ⟨ho, ho, h, h, le_rfl⟩

theorem mono (h : AtMost a x y) (hab : a ≤ b) : AtMost b x y :=
  ⟨h.left, h.right, h.within.mono hab, h.within_right.mono hab, h.units_le⟩

theorem le (h : AtMost b x y) : x ≤ y := by
  rw [le_iff_units h.left.isFinite h.right.isFinite]
  exact h.units_le

theorem ofUnits {n n' : Int} (hb : b ≤ 2 ^ 24) (h : n.natAbs ≤ b * 2 ^ 149)
    (h' : n'.natAbs ≤ b * 2 ^ 149) (hle : n ≤ n') :
    AtMost b (Binary32.ofUnits n) (Binary32.ofUnits n') := by
  have ho := ordinary_ofUnits (inRange_of_le hb h)
  have ho' := ordinary_ofUnits (inRange_of_le hb h')
  refine ⟨ho, ho', within_ofUnits hb h, within_ofUnits hb h', ?_⟩
  rw [← level_of_isFinite ho.isFinite, ← level_of_isFinite ho'.isFinite]
  exact (rounds_ofUnits n).level_le (rounds_ofUnits n') (by omega)

theorem add (h : AtMost a x y) (h' : AtMost b t u) (hab : a + b ≤ 2 ^ 24) :
    AtMost (a + b) (x + t) (y + u) := by
  have hle := h.units_le
  have hle' := h'.units_le
  rw [h.left.add_eq h'.left.isFinite, h.right.add_eq h'.right.isFinite]
  exact ofUnits hab (h.within.units_add_le h'.within)
    (h.within_right.units_add_le h'.within_right) (by omega)

theorem sub (h : AtMost a x y) (h' : AtMost b t u) (hab : a + b ≤ 2 ^ 24) :
    AtMost (a + b) (x - u) (y - t) := by
  have hle := h.units_le
  have hle' := h'.units_le
  have hdiff := h.within.units_add_le h'.within_right.neg
  have hdiff' := h.within_right.units_add_le h'.within.neg
  rw [units_neg, ← Int.sub_eq_add_neg] at hdiff hdiff'
  rw [h.left.sub_eq h'.right.isFinite, h.right.sub_eq h'.left.isFinite]
  exact ofUnits hab hdiff hdiff' (by omega)

/-- Sums of the same length keep the order of their terms. -/
theorem foldl {α : Type} {t u : α → Float32} (ht : ∀ k, AtMost b (t k) (u k)) (l : List α)
    (h : AtMost a x y) (hl : a + l.length * b ≤ 2 ^ 24) :
    AtMost (a + l.length * b) (l.foldl (fun sum k => sum + t k) x)
      (l.foldl (fun sum k => sum + u k) y) :=
  foldl_related (fun k h hab => h.add (ht k) hab) l h hl

/-- Of two sums over a list, one that takes in more of the same terms is at least as large if no term
is negative. -/
theorem foldl_filter {α : Type} {p q : α → Bool} (hpq : ∀ k, p k = true → q k = true)
    {w : α → Float32} (hw : ∀ k, AtMost b 0 (w k)) (l : List α) (h : AtMost a x y)
    (hl : a + l.length * b ≤ 2 ^ 24) :
    AtMost (a + l.length * b) ((l.filter p).foldl (fun sum k => sum + w k) x)
      ((l.filter q).foldl (fun sum k => sum + w k) y) := by
  induction l generalizing a x y with
  | nil => simpa using h
  | cons k l ih =>
      have hmul : (k :: l).length * b = b + l.length * b := by
        rw [List.length_cons]
        ring
      rw [hmul, ← Nat.add_assoc] at hl ⊢
      by_cases hp : p k = true
      · rw [List.filter_cons_of_pos hp, List.filter_cons_of_pos (hpq k hp), List.foldl_cons,
          List.foldl_cons]
        exact ih (h.add (.refl (hw k).right (hw k).within_right) (by omega)) hl
      · rw [List.filter_cons_of_neg hp]
        by_cases hq : q k = true
        · -- The term that is left out stands for a zero, which would change nothing.
          have hstep := h.add (hw k) (by omega)
          rw [h.left.add_zero parts_zero] at hstep
          rw [List.filter_cons_of_pos hq, List.foldl_cons]
          exact ih hstep hl
        · rw [List.filter_cons_of_neg hq]
          exact ih (h.mono (by omega)) hl

end AtMost

/-! ## Scores -/

theorem atMost_weight {kind : Kind} (h : kind ≠ .king) (phase : Phase) (s : Square) :
    AtMost 1 0 ((Weights.ofKind kind phase).get s) := by
  obtain ⟨ho, hnonneg⟩ := nonneg_of_belowOneNonneg (belowOneNonneg_ofKind h phase s)
  refine ⟨ordinary_zero, ho, within_zero.mono (by decide), within_weight kind phase s, ?_⟩
  rwa [units_zero]

/-- More pieces of a kind have a sum of weights at least as large, except for kings. -/
theorem atMost_dot {kind : Kind} (h : kind ≠ .king) (phase : Phase) {b b' : Bitboard}
    (hsub : b.Subset b') :
    AtMost 64 (dot b (.ofKind kind phase)) (dot b' (.ofKind kind phase)) := by
  have hlen : Square.all.length = 64 := List.length_finRange
  have hsum := AtMost.foldl_filter hsub (atMost_weight h phase) Square.all
    (.refl ordinary_zero within_zero) (by rw [hlen]; decide)
  exact hsum.mono (by rw [hlen])

/-- The side to move has lost no piece of another kind than a king, the opponent has won none, and
the kings have stayed. -/
structure Men.Improved (m m' : Men) : Prop where
  own : ∀ kind ≠ .king, (m .own kind).Subset (m' .own kind)
  opponent : ∀ kind ≠ .king, (m' .opponent kind).Subset (m .opponent kind)
  king : ∀ side, m' side .king = m side .king

theorem Men.Improved.atMost_term {m m' : Men} (h : m.Improved m') (kind : Kind) (phase : Phase) :
    AtMost 128 (m.term kind phase) (m'.term kind phase) := by
  by_cases hkind : kind = .king
  · subst hkind
    have hbound := m.opposite_term .king phase
    have hsame : m'.term .king phase = m.term .king phase := by
      simp only [Men.term, h.king]
    rw [hsame]
    exact .refl hbound.left hbound.within
  · exact (atMost_dot hkind phase (h.own kind hkind)).sub
      (atMost_dot hkind phase (h.opponent kind hkind).flip) (by decide)

theorem Men.Improved.atMost_score {m m' : Men} (h : m.Improved m') (hphase : m'.phase = m.phase) :
    AtMost 768 m.score m'.score := by
  have h0 : AtMost 0 0 0 := .refl ordinary_zero within_zero
  unfold Men.score
  rw [hphase]
  exact AtMost.foldl (fun kind => h.atMost_term kind m.phase) Kind.all h0 (by decide)

/-! ## Values -/

/-- What is assumed of an exponential: it yields a number that is not negative for every number, and
keeps the order of numbers. -/
structure IsGrowth (exp : Float32 → Float32) : Prop where
  isNumber : ∀ x : Float32, x.isNaN = false → (exp x).isNaN = false
  nonneg : ∀ x : Float32, x.isNaN = false → 0 ≤ exp x
  mono : ∀ x y : Float32, x.isNaN = false → y.isNaN = false → x ≤ y → exp x ≤ exp y

theorem clamp_le_clamp {lo hi x y : Float32} (hlo : lo.isNaN = false) (hhi : hi.isNaN = false)
    (hle : level lo ≤ level hi) (hx : x.isNaN = false) (hy : y.isNaN = false) (h : x ≤ y) :
    clamp lo hi x ≤ clamp lo hi y := by
  obtain ⟨hnum, hlevel⟩ := level_clamp hlo hhi hle hx
  obtain ⟨hnum', hlevel'⟩ := level_clamp hlo hhi hle hy
  rw [le_iff_level hx hy] at h
  rw [le_iff_level hnum hnum']
  omega

theorem one_add_pos {e : Float32} (he : e.isNaN = false) (h0 : 0 ≤ e) : 0 < 1 + e := by
  have hzero : (0 : Float32).isNaN = false := isNaN_of_isFinite ordinary_zero.isFinite
  have hle : (1 : Float32) + 0 ≤ 1 + e := add_le_add_left isFinite_one hzero he h0
  have hone : 0 < level ((1 : Float32) + 0) := by decide +kernel
  rw [le_iff_level (isNaN_one_add hzero) (isNaN_one_add he)] at hle
  rw [lt_iff_level hzero (isNaN_one_add he), level_of_isFinite ordinary_zero.isFinite, units_zero]
  omega

/-- The curve falls with the exponential. -/
theorem logistic_le {e e' : Float32} (he : e.isNaN = false) (he' : e'.isNaN = false)
    (h0 : 0 ≤ e') (h : e' ≤ e) : 2 / (1 + e) - 1 ≤ 2 / (1 + e') - 1 := by
  have hsum : 1 + e' ≤ 1 + e := add_le_add_left isFinite_one he' he h
  have hquot : 2 / (1 + e) ≤ 2 / (1 + e') :=
    div_le_div_left (by decide +kernel) (by decide +kernel) (isNaN_one_add he') (isNaN_one_add he)
      (one_add_pos he' h0) hsum
  exact sub_le_sub_right (isNaN_two_div he) (isNaN_two_div he') isFinite_one hquot

/-- A larger score has a value at least as large. -/
theorem squashWith_le {exp : Float32 → Float32} (hexp : IsGrowth exp) {q q' : Float32}
    (hq : q.isFinite = true) (hq' : q'.isFinite = true) (h : q ≤ q') :
    squashWith exp q ≤ squashWith exp q' := by
  have hprod : (q * -slope).isNaN = false := isNaN_mul hq isFinite_neg_slope
  have hprod' : (q' * -slope).isNaN = false := isNaN_mul hq' isFinite_neg_slope
  have hneg : q' * -slope ≤ q * -slope :=
    mul_le_mul_of_nonpos hq hq' isFinite_neg_slope (by decide +kernel) h
  have he := hexp.isNumber _ hprod
  have he' := hexp.isNumber _ hprod'
  have hcurve := logistic_le he he' (hexp.nonneg _ hprod') (hexp.mono _ _ hprod' hprod hneg)
  exact clamp_le_clamp (by decide +kernel) (by decide +kernel) (by decide +kernel)
    (isNaN_logistic he) (isNaN_logistic he') hcurve

/-! ## Planes with further pieces -/

namespace Planes

/-- A list of planes in which the pieces of one side and kind stand on other squares. -/
def setMask (ps : Planes) (side : Side) (kind : Kind) (b : Bitboard) : Planes :=
  ps.modify (slot side kind) fun p => { p with mask := b }

variable {ps : Planes} {side : Side} {kind : Kind} {b : Bitboard}

theorem length_setMask : (ps.setMask side kind b).length = ps.length := List.length_modify ..

theorem men_setMask (h : pieceCount ≤ ps.length) (side' : Side) (kind' : Kind) :
    (ps.setMask side kind b).men side' kind' =
      if side' = side ∧ kind' = kind then b else ps.men side' kind' := by
  rw [eq_ofSides h]
  cases side <;> cases kind <;> cases side' <;> cases kind' <;> rfl

theorem subset_men_setMask (h : pieceCount ≤ ps.length) (hsub : (ps.men side kind).Subset b)
    (side' : Side) (kind' : Kind) :
    (ps.men side' kind').Subset ((ps.setMask side kind b).men side' kind') := by
  rw [men_setMask h]
  split_ifs with hsame
  · rw [hsame.1, hsame.2]
    exact hsub
  · exact .refl _

theorem men_setMask_king (h : pieceCount ≤ ps.length) (hkind : kind ≠ .king) (side' : Side) :
    (ps.setMask side kind b).men side' .king = ps.men side' .king := by
  rw [men_setMask h, if_neg fun hsame => hkind hsame.2.symm]

/-- More squares for the own pieces improve a position. -/
theorem improved_setMask_own (h : pieceCount ≤ ps.length) (hkind : kind ≠ .king)
    (hsub : (ps.men .own kind).Subset b) : ps.men.Improved (ps.setMask .own kind b).men where
  own kind' _ := subset_men_setMask h hsub .own kind'
  opponent kind' _ := by
    rw [men_setMask h, if_neg (by simp)]
    exact .refl _
  king := men_setMask_king h hkind

/-- More squares for the opponent's pieces are what a position is an improvement on. -/
theorem improved_setMask_opponent (h : pieceCount ≤ ps.length) (hkind : kind ≠ .king)
    (hsub : (ps.men .opponent kind).Subset b) :
    (ps.setMask .opponent kind b).men.Improved ps.men where
  own kind' _ := by
    rw [men_setMask h, if_neg (by simp)]
    exact .refl _
  opponent kind' _ := subset_men_setMask h hsub .opponent kind'
  king side' := (men_setMask_king h hkind side').symm

end Planes

/-- The score and the value of a position that is no worse for the side to move are at least as
large, if the phase is the same. -/
theorem Men.Improved.score_le {m m' : Men} (h : m.Improved m') (hphase : m'.phase = m.phase)
    {exp : Float32 → Float32} (hexp : IsGrowth exp) :
    m.score ≤ m'.score ∧ squashWith exp m.score ≤ squashWith exp m'.score := by
  have hscore := h.atMost_score hphase
  exact ⟨hscore.le, squashWith_le hexp hscore.left.isFinite hscore.right.isFinite hscore.le⟩

/-- The second number is at least as good as the first for a side. -/
def Side.Favours : Side → Float32 → Float32 → Prop
  | .own, x, y => x ≤ y
  | .opponent, x, y => y ≤ x

/-- Further pieces of a kind other than kings, which do not change the phase, are no disadvantage to
their owner: neither to the score nor to the value. -/
theorem value_favours_of_subset {exp : Float32 → Float32} (hexp : IsGrowth exp) {ps : Planes}
    (h : Planes.pieceCount ≤ ps.length) {side : Side} {kind : Kind} (hkind : kind ≠ .king)
    {b : Bitboard} (hsub : (ps.men side kind).Subset b)
    (hphase : (ps.setMask side kind b).phase = ps.phase) :
    ∃ q q' v v', ps.score = .ok q ∧ (ps.setMask side kind b).score = .ok q' ∧
      ps.valueWith exp = .ok v ∧ (ps.setMask side kind b).valueWith exp = .ok v' ∧
      side.Favours q q' ∧ side.Favours v v' := by
  have h' : Planes.pieceCount ≤ (ps.setMask side kind b).length := by rwa [Planes.length_setMask]
  rw [Planes.phase_eq h', Planes.phase_eq h] at hphase
  have hmen : (ps.setMask side kind b).men.phase = ps.men.phase := Except.ok.inj hphase
  refine ⟨_, _, _, _, Planes.score_eq h, Planes.score_eq h', Planes.valueWith_eq exp h,
    Planes.valueWith_eq exp h', ?_⟩
  cases side with
  | own => exact (Planes.improved_setMask_own h hkind hsub).score_le hmen hexp
  | opponent => exact (Planes.improved_setMask_opponent h hkind hsub).score_le hmen.symm hexp

/-- The exponential that is right only where it vanishes, where it overflows and at zero is one that
keeps the order. -/
theorem isGrowth_coarseExp : IsGrowth coarseExp := by
  have hlow : (-104 : Float32).isNaN = false := by decide +kernel
  have hhigh : (89 : Float32).isNaN = false := by decide +kernel
  constructor
  case isNumber =>
    intro x _
    unfold coarseExp
    split_ifs <;> decide +kernel
  case nonneg =>
    intro x _
    unfold coarseExp
    split_ifs <;> decide +kernel
  case mono =>
    intro x y hx hy h
    rw [le_iff_level hx hy] at h
    unfold coarseExp
    simp only [lt_iff_level hx hlow, lt_iff_level hy hlow, lt_iff_level hhigh hx,
      lt_iff_level hhigh hy]
    -- Where the results would be in the wrong order, the arguments are not in order.
    split_ifs <;> first | omega | decide +kernel

/-- The piece planes of a board without men. -/
def Planes.bare : Planes := .ofMasks (fun _ => 0) (fun _ => 0)

/-- Queens on all squares are no disadvantage; here the exponential is needed only where `coarseExp`
is right. -/
theorem value_favours_of_subset_queens :
    IsGrowth coarseExp ∧ Planes.pieceCount ≤ Planes.bare.length ∧ Kind.queen ≠ .king ∧
      (Planes.bare.men .own .queen).Subset Bitboard.full ∧
      (Planes.bare.setMask .own .queen Bitboard.full).phase = Planes.bare.phase ∧
      ∃ q q' v v', Planes.bare.score = .ok q ∧
        (Planes.bare.setMask .own .queen Bitboard.full).score = .ok q' ∧
        Planes.bare.valueWith coarseExp = .ok v ∧
        (Planes.bare.setMask .own .queen Bitboard.full).valueWith coarseExp = .ok v' ∧
        Side.own.Favours q q' ∧ Side.own.Favours v v' := by
  have hsub : (Planes.bare.men .own .queen).Subset Bitboard.full :=
    fun s _ => Bitboard.contains_full s
  have hphase : (Planes.bare.setMask .own .queen Bitboard.full).phase = Planes.bare.phase := by
    decide +kernel
  exact ⟨isGrowth_coarseExp, by decide, by decide, hsub, hphase,
    value_favours_of_subset isGrowth_coarseExp (by decide) (by decide) hsub hphase⟩

/-- A queen, a knight and the king on e1 against the king on g8. -/
def queenAndKnight : Planes :=
  .ofMasks
    (fun
      | .knight => 0x2
      | .queen => 0x8
      | .king => 0x10
      | _ => 0)
    (fun
      | .king => 0x4000000000000000
      | _ => 0)

/-- A bishop on h1 ends the endgame, which costs the king on e1 more than the bishop is worth. -/
example : (queenAndKnight.setMask .own .bishop 0x80).men.score < queenAndKnight.men.score := by
  decide +kernel

end PieceSquare
