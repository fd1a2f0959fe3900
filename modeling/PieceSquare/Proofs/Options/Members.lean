import Mathlib
import PieceSquare.Json

set_option autoImplicit false

/-! # Members as a dictionary

Members that are put in one after another are kept in the order of their names, and of those with one
name the last is found (`get?_ofPairs_eq_some_iff`). In this order there is only one list of members
for each assignment of values to names (`Ordered.ext`), so it does not matter to the result whether
members come one by one or as members that have been gathered before
(`ofPairs_append_ofPairs`).
-/

namespace PieceSquare.Members

/-! ## The order of the names -/

/-- Whether the names of members rise, so that no name occurs twice. -/
def Ordered (members : Members) : Prop := members.Pairwise fun a b => a.1 < b.1

theorem mem_insert {name : String} {value : Json} {members : Members} {pair : String × Json}
    (h : pair ∈ insert name value members) : pair = (name, value) ∨ pair ∈ members := by
  induction members with
  | nil => exact .inl (List.mem_singleton.mp h)
  | cons other rest ih =>
      rw [insert] at h
      split_ifs at h
      · exact (List.mem_cons.mp h).imp_right (List.mem_cons_of_mem other)
      · exact List.mem_cons.mp h
      · rcases List.mem_cons.mp h with rfl | h
        · exact .inr List.mem_cons_self
        · exact (ih h).imp_right (List.mem_cons_of_mem other)

theorem Ordered.insert {members : Members} (h : Ordered members) (name : String) (value : Json) :
    Ordered (insert name value members) := by
  induction members with
  | nil => exact List.pairwise_singleton _ _
  | cons other rest ih =>
      obtain ⟨hother, hrest⟩ := List.pairwise_cons.mp h
      rw [Members.insert]
      split_ifs with heq hlt
      · exact List.pairwise_cons.mpr ⟨fun pair hpair => heq ▸ hother pair hpair, hrest⟩
      · refine List.pairwise_cons.mpr ⟨fun pair hpair => ?_, h⟩
        rcases List.mem_cons.mp hpair with rfl | hpair
        · exact hlt
        · exact lt_trans hlt (hother pair hpair)
      · have hgt : other.1 < name := lt_of_le_of_ne (not_lt.mp hlt) (Ne.symm heq)
        refine List.pairwise_cons.mpr ⟨fun pair hpair => ?_, ih hrest⟩
        rcases mem_insert hpair with rfl | hpair
        · exact hgt
        · exact hother pair hpair

/-- Where names rise, each member is found by its name. -/
theorem Ordered.get?_eq_some_iff {members : Members} (h : Ordered members) {name : String}
    {value : Json} : get? members name = some value ↔ (name, value) ∈ members := by
  induction members with
  | nil => exact iff_of_false (by rintro ⟨⟩) List.not_mem_nil
  | cons pair rest ih =>
      obtain ⟨hfront, hrest⟩ := List.pairwise_cons.mp h
      obtain ⟨first, firstValue⟩ := pair
      rw [get?_cons, List.mem_cons, Prod.mk.injEq]
      split_ifs with heq
      · have hnot : (name, value) ∉ rest := fun hmem => (hfront _ hmem).ne heq.symm
        simp [heq ▸ hnot, heq, eq_comm]
      · rw [ih hrest]
        simp [heq]

/-- Members are determined by the values that are found in them. -/
theorem Ordered.ext {members members' : Members} (h : Ordered members) (h' : Ordered members')
    (hget : ∀ name, get? members name = get? members' name) : members = members' := by
  have hnodup {members : Members} (h : Ordered members) : members.Nodup :=
    h.imp fun hlt heq => hlt.ne (congrArg Prod.fst heq)
  have hperm : members.Perm members' := by
    refine (List.perm_ext_iff_of_nodup (hnodup h) (hnodup h')).mpr fun pair => ?_
    rw [← h.get?_eq_some_iff, ← h'.get?_eq_some_iff, hget]
  exact hperm.eq_of_pairwise (fun _ _ _ _ hab hba => absurd hab hba.asymm) h h'

/-! ## Members from a list of pairs -/

theorem ordered_foldl_insert {members : Members} (h : Ordered members)
    (pairs : List (String × Json)) :
    Ordered (pairs.foldl (fun members (name, value) => insert name value members) members) := by
  induction pairs generalizing members with
  | nil => exact h
  | cons pair pairs ih => exact ih (h.insert pair.1 pair.2)

theorem ordered_ofPairs (pairs : List (String × Json)) : Ordered (ofPairs pairs) :=
  ordered_foldl_insert List.Pairwise.nil pairs

theorem get?_foldl_insert (pairs : List (String × Json)) (members : Members) (name : String) :
    get? (pairs.foldl (fun members (name, value) => insert name value members) members) name =
      (pairs.reverse.lookup name).or (get? members name) := by
  induction pairs generalizing members with
  | nil => rfl
  | cons pair pairs ih =>
      rw [List.foldl_cons, ih, List.reverse_cons, List.lookup_append, Option.or_assoc, get?_insert]
      congr 1
      by_cases h : name = pair.1
      · rw [if_pos h, List.lookup_cons, beq_iff_eq.mpr h]
        rfl
      · rw [if_neg h, List.lookup_cons, beq_eq_false_iff_ne.mpr h]
        rfl

theorem get?_ofPairs (pairs : List (String × Json)) (name : String) :
    get? (ofPairs pairs) name = pairs.reverse.lookup name := by
  rw [ofPairs, get?_foldl_insert]
  exact Option.or_none

/-- Of several pairs with one name the last counts. -/
theorem get?_ofPairs_eq_some_iff {pairs : List (String × Json)} {name : String} {value : Json} :
    get? (ofPairs pairs) name = some value ↔ ∃ before after,
      pairs = before ++ (name, value) :: after ∧ ∀ pair ∈ after, pair.1 ≠ name := by
  rw [get?_ofPairs, List.lookup_eq_some_iff]
  constructor
  · rintro ⟨after, before, h, hafter⟩
    refine ⟨before.reverse, after.reverse, ?_, fun pair hpair heq => ?_⟩
    · rw [← List.reverse_reverse pairs, h]
      simp
    · have := hafter pair (List.mem_reverse.mp hpair)
      simp [heq] at this
  · rintro ⟨before, after, rfl, hafter⟩
    refine ⟨after.reverse, before.reverse, by simp, fun pair hpair => ?_⟩
    simpa using (hafter pair (List.mem_reverse.mp hpair)).symm

theorem get?_ofPairs_eq_none_iff {pairs : List (String × Json)} {name : String} :
    get? (ofPairs pairs) name = none ↔ ∀ pair ∈ pairs, pair.1 ≠ name := by
  rw [get?_ofPairs, List.lookup_eq_none_iff]
  simp only [List.mem_reverse, bne_iff_ne, ne_comm]

theorem get?_ofPairs_append (pairs pairs' : List (String × Json)) (name : String) :
    get? (ofPairs (pairs ++ pairs')) name =
      (get? (ofPairs pairs') name).or (get? (ofPairs pairs) name) := by
  rw [get?_ofPairs, get?_ofPairs, get?_ofPairs, List.reverse_append, List.lookup_append]

theorem ofPairs_of_ordered {members : Members} (h : Ordered members) :
    ofPairs members = members := by
  refine (ordered_ofPairs members).ext h fun name => Option.ext fun value => ?_
  rw [get?_ofPairs_eq_some_iff, h.get?_eq_some_iff]
  constructor
  · rintro ⟨before, after, hmembers, -⟩
    exact hmembers ▸ List.mem_append_right before List.mem_cons_self
  · intro hmem
    obtain ⟨before, after, rfl⟩ := List.append_of_mem hmem
    have hafter := (List.pairwise_cons.mp (List.pairwise_append.mp h).2.1).1
    exact ⟨before, after, rfl, fun pair hpair => (hafter pair hpair).ne'⟩

/-- It makes no difference whether pairs are put in one by one or have been gathered before. -/
theorem ofPairs_append_ofPairs (pairs pairs' : List (String × Json)) :
    ofPairs (ofPairs pairs ++ ofPairs pairs') = ofPairs (pairs ++ pairs') := by
  refine (ordered_ofPairs _).ext (ordered_ofPairs _) fun name => ?_
  rw [get?_ofPairs_append, get?_ofPairs_append, ofPairs_of_ordered (ordered_ofPairs pairs),
    ofPairs_of_ordered (ordered_ofPairs pairs')]

end PieceSquare.Members
