import PieceSquare.Proofs.Bitboard

set_option autoImplicit false

/-! # The squares of a word in order

The squares of a set can be taken off its word one at a time, lowest first: the lowest is the number
of trailing zeros of the word (`isLowest_ctz`), and `b &&& (b - 1)` is the word without it
(`IsLowest.contains_clear`), because below the lowest bit `b - 1` has only ones and above it the same
bits as `b`. So the list of the squares is the lowest one in front of the list of the word that is
left (`IsLowest.squares_eq`). An ascending list is known by its members, and so is the word.
-/

namespace PieceSquare.Bitboard

/-! ## The lowest square -/

/-- A square that belongs to a set which has none below it. -/
structure IsLowest (b : Bitboard) (s : Square) : Prop where
  contains : b.contains s = true
  below : ∀ t < s, b.contains t = false

/-- The number of trailing zeros of a word that is not zero is the number of a square. -/
theorem ctz_lt {b : Bitboard} (hb : b ≠ 0) : b.ctz.toNat < 64 :=
  BitVec.lt_def.mp (BitVec.ctz_lt_iff_ne_zero.mpr hb)

theorem isLowest_ctz {b : Bitboard} (hb : b ≠ 0) : b.IsLowest ⟨b.ctz.toNat, ctz_lt hb⟩ where
  contains := BitVec.getLsbD_true_ctz_of_ne_zero hb
  below _ ht := BitVec.getLsbD_false_of_lt_ctz ht

theorem IsLowest.ne_zero {b : Bitboard} {s : Square} (h : b.IsLowest s) : b ≠ 0 := by
  rintro rfl
  have hcontains := h.contains
  rw [contains_zero] at hcontains
  cases hcontains

/-! ## Taking the lowest square off -/

theorem toNat_pos {b : Bitboard} (hb : b ≠ 0) : 0 < b.toNat :=
  Nat.pos_of_ne_zero fun h => hb (BitVec.eq_of_toNat_eq h)

theorem toNat_sub_one {b : Bitboard} (hb : b ≠ 0) : (b - 1).toNat = b.toNat - 1 := by
  refine BitVec.toNat_sub_of_le (BitVec.le_def.mpr ?_)
  show 1 ≤ b.toNat
  exact toNat_pos hb

theorem toNat_clear_lt {b : Bitboard} (hb : b ≠ 0) : (b &&& (b - 1)).toNat < b.toNat := by
  calc (b &&& (b - 1)).toNat ≤ (b - 1).toNat := by
        rw [BitVec.toNat_and]
        exact Nat.and_le_right
    _ = b.toNat - 1 := toNat_sub_one hb
    _ < b.toNat := Nat.sub_one_lt (toNat_pos hb).ne'

theorem testBit_toNat (b : Bitboard) (s : Square) : b.toNat.testBit s.val = b.contains s :=
  BitVec.testBit_toNat b

/-- Up to its lowest bit, a word has this bit alone. -/
theorem IsLowest.toNat_mod {b : Bitboard} {s : Square} (h : b.IsLowest s) :
    b.toNat % 2 ^ (s.val + 1) = 2 ^ s.val := by
  apply Nat.eq_of_testBit_eq
  intro i
  rw [Nat.testBit_mod_two_pow, Nat.testBit_two_pow]
  rcases lt_trichotomy i s.val with hlt | rfl | hgt
  · have hbit : b.toNat.testBit i = false := by
      rw [← h.below ⟨i, by omega⟩ hlt, ← testBit_toNat]
    rw [hbit, Bool.and_false, decide_eq_false hlt.ne']
  · simp [testBit_toNat, h.contains]
  · have hout : ¬ i < s.val + 1 := by omega
    simp [hout, hgt.ne]

/-- Less 1, a word has ones below its lowest bit, a zero in its place and the same bits above. -/
theorem IsLowest.contains_sub_one {b : Bitboard} {s : Square} (h : b.IsLowest s) (t : Square) :
    Bitboard.contains (b - 1) t = if t ≤ s then decide (t < s) else b.contains t := by
  -- The word is `high * 2 ^ (s + 1) + 2 ^ s`, so less 1 it ends with the digits of `2 ^ s - 1`.
  have hmod := h.toNat_mod
  have hsplit := Nat.div_add_mod b.toNat (2 ^ (s.val + 1))
  have hpos : 0 < 2 ^ s.val := Nat.two_pow_pos s.val
  have hlt : 2 ^ s.val < 2 ^ (s.val + 1) := Nat.pow_lt_pow_right (by decide) (Nat.lt_succ_self _)
  have hone : (b - 1).toNat = 2 ^ (s.val + 1) * (b.toNat / 2 ^ (s.val + 1)) + (2 ^ s.val - 1) := by
    rw [toNat_sub_one h.ne_zero]
    omega
  have hbit : b.toNat.testBit t.val = if t.val < s.val + 1 then (2 ^ s.val).testBit t.val
      else (b.toNat / 2 ^ (s.val + 1)).testBit (t.val - (s.val + 1)) := by
    rw [← Nat.testBit_two_pow_mul_add _ hlt, ← hmod, hsplit]
  have hle : t.val < s.val + 1 ↔ t ≤ s := Nat.lt_succ_iff
  rw [← testBit_toNat, ← testBit_toNat, hone, Nat.testBit_two_pow_mul_add _ (by omega), hbit,
    Nat.testBit_two_pow_sub_one]
  simp only [hle]
  split_ifs <;> rfl

/-- The word `b &&& (b - 1)` is the word `b` without its lowest bit. -/
theorem IsLowest.contains_clear {b : Bitboard} {s : Square} (h : b.IsLowest s) (t : Square) :
    Bitboard.contains (b &&& (b - 1)) t = (b.contains t && decide (t ≠ s)) := by
  rw [contains_and, h.contains_sub_one]
  rcases lt_trichotomy t s with hlt | rfl | hgt
  · rw [h.below t hlt, Bool.false_and, Bool.false_and]
  · simp
  · simp [not_le.mpr hgt, hgt.ne']

/-! ## The list of the squares -/

theorem pairwise_squares (b : Bitboard) : b.squares.Pairwise (· < ·) :=
  (List.pairwise_lt_finRange 64).sublist List.filter_sublist

/-- An ascending list with the members of a set is the list of its squares. -/
theorem squares_eq_of_mem_iff {b : Bitboard} {l : List Square} (hl : l.Pairwise (· < ·))
    (h : ∀ s, s ∈ l ↔ b.contains s = true) : b.squares = l :=
  b.pairwise_squares.eq_of_mem_iff hl fun s => mem_squares.trans (h s).symm

theorem squares_injective {a b : Bitboard} (h : a.squares = b.squares) : a = b := by
  refine ext_contains fun s => Bool.eq_iff_iff.mpr ?_
  rw [← mem_squares, ← mem_squares, h]

theorem squares_zero : squares 0 = [] := by
  refine squares_eq_of_mem_iff .nil fun s => ?_
  rw [contains_zero]
  simp

theorem lowest?_eq_head? (b : Bitboard) : b.lowest? = b.squares.head? := List.head?_filter.symm

/-- In front stands the lowest square, and behind it those of the word without it. -/
theorem IsLowest.squares_eq {b : Bitboard} {s : Square} (h : b.IsLowest s) :
    b.squares = s :: squares (b &&& (b - 1)) := by
  have hmem (t : Square) : t ∈ squares (b &&& (b - 1)) ↔ b.contains t = true ∧ t ≠ s := by
    rw [mem_squares, h.contains_clear, Bool.and_eq_true, decide_eq_true_eq]
  refine squares_eq_of_mem_iff (List.pairwise_cons.mpr ⟨fun t ht => ?_, pairwise_squares _⟩)
    fun t => ?_
  · obtain ⟨ht, hne⟩ := (hmem t).mp ht
    rcases lt_trichotomy t s with hlt | heq | hgt
    · exact absurd ht (by simp [h.below t hlt])
    · exact absurd heq hne
    · exact hgt
  · rw [List.mem_cons, hmem]
    constructor
    · rintro (rfl | ⟨ht, -⟩)
      · exact h.contains
      · exact ht
    · intro ht
      by_cases heq : t = s
      · exact .inl heq
      · exact .inr ⟨ht, heq⟩

theorem IsLowest.lowest?_eq {b : Bitboard} {s : Square} (h : b.IsLowest s) :
    b.lowest? = some s := by
  rw [lowest?_eq_head?, h.squares_eq]
  rfl

/-! ## The number of ones -/

theorem cpopNatRec_eq_countP (b : Bitboard) (n acc : Nat) :
    b.cpopNatRec n acc = acc + (List.range n).countP b.getLsbD := by
  induction n generalizing acc with
  | zero =>
      rw [BitVec.cpopNatRec_zero_self]
      rfl
  | succ n ih =>
      rw [BitVec.cpopNatRec_succ, ih, List.range_succ, List.countP_append, List.countP_singleton]
      cases b.getLsbD n with
      | false => simp
      | true =>
          rw [Bool.toNat_true, if_pos rfl]
          omega

/-- A set has as many squares as its word has ones. -/
theorem toNat_cpop (b : Bitboard) : b.cpop.toNat = b.count := by
  have hrange : List.range 64 = Square.all.map (fun s : Square => s.val) :=
    List.map_coe_finRange_eq_range.symm
  rw [BitVec.toNat_cpop, cpopNatRec_eq_countP, Nat.zero_add, hrange, List.countP_map]
  rfl

/-! ## Leaving squares out -/

/-- The set without the squares of a list. -/
def without (b : Bitboard) (l : List Square) : Bitboard := b &&& ~~~ofSquares l

theorem contains_without (b : Bitboard) (l : List Square) (s : Square) :
    (b.without l).contains s = (b.contains s && decide (s ∉ l)) := by
  have hnot : contains (~~~ofSquares l) s = !contains (ofSquares l) s := by simp [contains]
  rw [without, contains_and, hnot, contains_ofSquares]
  simp

theorem without_nil (b : Bitboard) : b.without [] = b := ext_contains fun s => by
  simp [contains_without]

/-- Without its `k` lowest squares a set has the others, in the same order. -/
theorem squares_without_take (b : Bitboard) (k : Nat) :
    (b.without (b.squares.take k)).squares = b.squares.drop k := by
  refine squares_eq_of_mem_iff (b.pairwise_squares.sublist (List.drop_sublist _ _)) fun s => ?_
  have hdisjoint := List.disjoint_take_drop b.pairwise_squares.nodup (le_refl k)
  rw [contains_without, Bool.and_eq_true, decide_eq_true_eq, ← mem_squares]
  constructor
  · exact fun hs => ⟨List.mem_of_mem_drop hs, fun htake => hdisjoint htake hs⟩
  · rintro ⟨hs, htake⟩
    rw [← List.take_append_drop k b.squares, List.mem_append] at hs
    exact hs.resolve_left htake

/-! ## Upside down -/

theorem perm_squares_flip (b : Bitboard) : b.flip.squares.Perm (b.squares.map Square.flip) := by
  rw [List.perm_ext_iff_of_nodup (pairwise_squares _).nodup
    (b.pairwise_squares.nodup.map Square.flip_injective)]
  intro s
  rw [mem_squares, contains_flip, List.mem_map]
  constructor
  · exact fun hs => ⟨s.flip, mem_squares.mpr hs, s.flip_flip⟩
  · rintro ⟨t, ht, rfl⟩
    rw [Square.flip_flip]
    exact mem_squares.mp ht

end PieceSquare.Bitboard
