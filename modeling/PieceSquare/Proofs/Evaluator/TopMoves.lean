import PieceSquare.Proofs.Binary32.Level
import PieceSquare.Report

set_option autoImplicit false

/-! # The moves of the highest probability

All moves are ranked by their numbers, moves of equal numbers by themselves, and the top moves are
those at the head of the ranking (`topMoves_eq_map`). Numbers that are not NaN are ordered by their
levels, and the two zeros have one level, so that a sort by levels is the sort that is made. It is
stable: the moves of one level keep the order they have among all moves (`filter_ranking`), which
settles the order of moves with equal numbers.
-/

namespace PieceSquare

open Binary32 (level)

/-- Whether a move comes before another: its number is greater, or the numbers are equal and it is the
lower move. -/
def Precedes (a b : Fin policySize × Float32) : Prop := b.2 < a.2 ∨ (a.2 == b.2) = true ∧ a.1 < b.1

/-- Whether the level of a move is at least that of another. -/
def notBelow (logits : Fin policySize → Float32) (a b : Fin policySize) : Bool :=
  decide (level (logits b) ≤ level (logits a))

/-- All moves, by falling levels. -/
def ranking (logits : Fin policySize → Float32) : List (Fin policySize) :=
  (List.finRange policySize).mergeSort (notBelow logits)

section

variable (logits : Fin policySize → Float32)

theorem notBelow_trans (a b c : Fin policySize) (hab : notBelow logits a b = true)
    (hbc : notBelow logits b c = true) : notBelow logits a c = true := by
  simp only [notBelow, decide_eq_true_eq] at hab hbc ⊢
  exact hbc.trans hab

theorem notBelow_total (a b : Fin policySize) :
    (notBelow logits a b || notBelow logits b a) = true := by
  simp only [notBelow, Bool.or_eq_true, decide_eq_true_eq]
  exact le_total _ _

theorem ranking_perm : (ranking logits).Perm (List.finRange policySize) := List.mergeSort_perm _ _

theorem nodup_ranking : (ranking logits).Nodup :=
  (ranking_perm logits).nodup_iff.mpr (List.nodup_finRange _)

theorem mem_ranking (m : Fin policySize) : m ∈ ranking logits :=
  (ranking_perm logits).mem_iff.mpr (List.mem_finRange m)

/-- Moves of one level are ranked in the order of the moves. -/
theorem filter_ranking (v : Int) :
    (ranking logits).filter (fun m => level (logits m) = v) =
      (List.finRange policySize).filter fun m => level (logits m) = v := by
  set same := (List.finRange policySize).filter fun m => level (logits m) = v with hsame
  have hlevel : ∀ m ∈ same, level (logits m) = v := fun m hm => by
    simpa using (List.mem_filter.mp hm).2
  have hsorted : same.Pairwise fun a b => notBelow logits a b = true := by
    refine List.pairwise_of_forall_mem_list fun a ha b hb => ?_
    rw [notBelow, decide_eq_true_eq, hlevel a ha, hlevel b hb]
  have hsublist : same.Sublist (ranking logits) :=
    List.sublist_mergeSort (notBelow_trans logits) (notBelow_total logits) hsorted
      List.filter_sublist
  have hfilter : same.Sublist ((ranking logits).filter fun m => level (logits m) = v) := by
    have hkeep : same.filter (fun m => level (logits m) = v) = same := by
      rw [hsame, List.filter_filter]
      simp
    exact hkeep ▸ hsublist.filter _
  have hlength : same.length = ((ranking logits).filter fun m => level (logits m) = v).length :=
    (((ranking_perm logits).filter _).length_eq).symm
  exact (hfilter.eq_of_length hlength).symm

end

variable {logits : Fin policySize → Float32}

theorem precedes_iff_level {a b : Fin policySize} (ha : (logits a).isNaN = false)
    (hb : (logits b).isNaN = false) : Precedes (a, logits a) (b, logits b) ↔
      level (logits b) < level (logits a) ∨ level (logits a) = level (logits b) ∧ a < b := by
  rw [Precedes, Binary32.lt_iff_level hb ha, Binary32.beq_iff_level ha hb]

theorem pairwise_ranking (h : ∀ m, (logits m).isNaN = false) :
    (ranking logits).Pairwise fun a b => Precedes (a, logits a) (b, logits b) := by
  rw [List.pairwise_iff_forall_sublist]
  intro a b hsublist
  have hsorted := List.pairwise_iff_forall_sublist.mp
    (List.pairwise_mergeSort (notBelow_trans logits) (notBelow_total logits)
      (List.finRange policySize)) hsublist
  rw [notBelow, decide_eq_true_eq] at hsorted
  rw [precedes_iff_level (h a) (h b)]
  rcases hsorted.lt_or_eq with hlt | heq
  · exact .inl hlt
  · refine .inr ⟨heq.symm, ?_⟩
    -- Both moves have one level, so they stand in the ranking as they stand among all moves.
    have hpair := hsublist.filter fun m => level (logits m) = level (logits a)
    rw [filter_ranking] at hpair
    have hmoves : [a, b].Sublist (List.finRange policySize) := by
      simpa [heq] using hpair.trans List.filter_sublist
    exact List.pairwise_iff_forall_sublist.mp (List.pairwise_lt_finRange policySize) hmoves

/-- The top moves are the head of the ranking. -/
theorem topMoves_eq_map (h : ∀ m, (logits m).isNaN = false) (n : Nat) :
    topMoves logits n = ((ranking logits).take n).map fun m => (m, logits m) := by
  have hcompare (a b : Fin policySize) : notBelow logits a b = !decide (logits a < logits b) := by
    rw [notBelow, ← decide_not, decide_eq_decide, Binary32.lt_iff_level (h a) (h b), not_lt]
  unfold topMoves
  split_ifs with hn
  · rw [hn]
    rfl
  · rw [List.map_take, ranking]
    exact congrArg (List.take n) (List.map_mergeSort fun a _ b _ => hcompare a b).symm

theorem length_topMoves (n : Nat) : (topMoves logits n).length = min n policySize := by
  unfold topMoves
  split_ifs with hn
  · rw [hn, Nat.zero_min]
    rfl
  · rw [List.length_take, List.length_mergeSort, List.length_map, List.length_finRange]

/-- What the `n` top moves are: as many as asked for, as far as there are moves, each once and with
its number, in order, and in front of all moves that are left out. -/
structure AreTop (logits : Fin policySize → Float32) (n : Nat)
    (moves : List (Fin policySize × Float32)) : Prop where
  length : moves.length = min n policySize
  logit : ∀ move ∈ moves, move.2 = logits move.1
  nodup : (moves.map (·.1)).Nodup
  sorted : moves.Pairwise Precedes
  best : ∀ m, m ∉ moves.map (·.1) → ∀ move ∈ moves, Precedes move (m, logits m)

theorem areTop_topMoves (h : ∀ m, (logits m).isNaN = false) (n : Nat) :
    AreTop logits n (topMoves logits n) := by
  have hmoves : (topMoves logits n).map (·.1) = (ranking logits).take n := by
    rw [topMoves_eq_map h, List.map_map]
    exact List.map_id _
  constructor
  case length => exact length_topMoves n
  case logit =>
    intro move hmove
    rw [topMoves_eq_map h] at hmove
    obtain ⟨m, -, rfl⟩ := List.mem_map.mp hmove
    rfl
  case nodup =>
    rw [hmoves]
    exact (nodup_ranking logits).sublist (List.take_sublist n _)
  case sorted =>
    rw [topMoves_eq_map h, List.pairwise_map]
    exact (pairwise_ranking h).sublist (List.take_sublist n _)
  case best =>
    intro m hm move hmove
    rw [hmoves] at hm
    rw [topMoves_eq_map h] at hmove
    obtain ⟨taken, htaken, rfl⟩ := List.mem_map.mp hmove
    have hrest : m ∈ (ranking logits).drop n := by
      have hmem := mem_ranking logits m
      rw [← List.take_append_drop n (ranking logits), List.mem_append] at hmem
      exact hmem.resolve_left hm
    have hall := pairwise_ranking h
    rw [← List.take_append_drop n (ranking logits), List.pairwise_append] at hall
    exact hall.2.2 taken htaken m hrest

theorem topMoves_isPrefix {n n' : Nat} (h : n ≤ n') : topMoves logits n <+: topMoves logits n' := by
  unfold topMoves
  split_ifs with hn hn'
  · exact List.nil_prefix
  · exact List.nil_prefix
  · omega
  · exact List.take_prefix_take_left h

/-- Of all numbers that are not NaN the top moves are chosen, and more of them begin with fewer. -/
theorem topMoves_areTop (h : ∀ m, (logits m).isNaN = false) (n : Nat) :
    AreTop logits n (topMoves logits n) ∧ ∀ n', n ≤ n' → topMoves logits n <+: topMoves logits n' :=
  ⟨areTop_topMoves h n, fun _ => topMoves_isPrefix⟩

/-- Numbers that are zeros of both signs but for one, so that most moves are tied. -/
def tiedLogits (m : Fin policySize) : Float32 :=
  if m.val = 1857 then 1 else if m.val % 2 = 0 then -0.0 else 0.0

theorem topMoves_areTop_tied : (∀ m, (tiedLogits m).isNaN = false) ∧
    AreTop tiedLogits 3 (topMoves tiedLogits 3) ∧
      topMoves tiedLogits 3 <+: topMoves tiedLogits 1858 := by
  have h : ∀ m, (tiedLogits m).isNaN = false := by
    intro m
    unfold tiedLogits
    split_ifs <;> decide
  obtain ⟨htop, hprefix⟩ := topMoves_areTop h 3
  exact ⟨h, htop, hprefix 1858 (by decide)⟩

end PieceSquare
