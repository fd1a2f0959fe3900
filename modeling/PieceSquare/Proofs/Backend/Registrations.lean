import Mathlib
import PieceSquare.Backend.Registry

set_option autoImplicit false

/-! # What a registry holds

A registry reflects the registrations that were made and nothing else of their history. It holds the
last registration of each name, by falling priority, and last registrations of equal priority in the
order in which they were made (`Arranged`). One registration removes an entry and inserts another,
and both keep an arrangement, so the arrangement after a list of registrations is found by induction
on the list from its end. What is asked of a registry can then be told from the registrations alone
(`Reflects`).
-/

namespace PieceSquare.Registry

variable {network : Type}

/-! ## Lists with distinct names -/

theorem eraseP_eq_filter_of_nodup {l : List (Registration network)} (h : (l.map (·.name)).Nodup)
    (name : String) : l.eraseP (·.name == name) = l.filter (·.name != name) := by
  induction l with
  | nil => rfl
  | cons r l ih =>
      rw [List.map_cons, List.nodup_cons] at h
      by_cases hr : r.name = name
      · have hrest : l.filter (·.name != name) = l := by
          rw [List.filter_eq_self]
          intro s hs
          have hne : s.name ≠ name := by
            rintro rfl
            exact h.1 (hr ▸ List.mem_map_of_mem hs)
          simpa using hne
        rw [List.eraseP_cons_of_pos (by simpa using hr),
          List.filter_cons_of_neg (by simpa using hr), hrest]
      · rw [List.eraseP_cons_of_neg (by simpa using hr),
          List.filter_cons_of_pos (by simpa using hr), ih h.2]

theorem find?_eq_some_of_nodup {l : List (Registration network)} (h : (l.map (·.name)).Nodup)
    {r : Registration network} (hr : r ∈ l) : l.find? (·.name == r.name) = some r := by
  induction l with
  | nil => cases hr
  | cons s l ih =>
      rw [List.map_cons, List.nodup_cons] at h
      rcases List.mem_cons.mp hr with rfl | hr
      · simp
      · have hne : s.name ≠ r.name := fun he => h.1 (he ▸ List.mem_map_of_mem hr)
        rw [List.find?_cons_of_neg (by simpa using hne)]
        exact ih h.2 hr

/-- Where names are distinct, the order of the entries does not matter to a lookup. -/
theorem find?_perm {l l' : List (Registration network)} (hp : l.Perm l')
    (h : (l.map (·.name)).Nodup) (name : String) : l.find? (·.name == name) = l'.find? (·.name == name) := by
  have h' : (l'.map (·.name)).Nodup := (hp.map _).nodup_iff.mp h
  cases hl : l.find? (·.name == name) with
  | none =>
      rw [List.find?_eq_none] at hl
      exact (List.find?_eq_none.mpr fun r hr => hl r (hp.mem_iff.mpr hr)).symm
  | some r =>
      have hname : r.name = name := by simpa using List.find?_some hl
      rw [← hname]
      exact (find?_eq_some_of_nodup h' (hp.mem_iff.mp (List.mem_of_find?_eq_some hl))).symm

/-! ## The last registrations -/

/-- The registrations that no later one of the same name follows. -/
def lastCalls : List (Registration network) → List (Registration network)
  | [] => []
  | r :: rs => if rs.any (·.name == r.name) then lastCalls rs else r :: lastCalls rs

/-- The last registration of a name. -/
def lastCall? (calls : List (Registration network)) (name : String) :
    Option (Registration network) :=
  calls.reverse.find? (·.name == name)

theorem lastCalls_append_singleton (calls : List (Registration network))
    (r : Registration network) :
    lastCalls (calls ++ [r]) = (lastCalls calls).filter (·.name != r.name) ++ [r] := by
  induction calls with
  | nil => rfl
  | cons c calls ih =>
      rw [List.cons_append, lastCalls, lastCalls, List.any_append, ih]
      by_cases hlater : calls.any (·.name == c.name)
      · simp [hlater]
      · by_cases hr : r.name = c.name
        · simp [hlater, hr]
        · simp [hlater, hr, Ne.symm hr]

theorem nodup_lastCalls (calls : List (Registration network)) :
    ((lastCalls calls).map (·.name)).Nodup := by
  induction calls using List.reverseRecOn with
  | nil => exact List.nodup_nil
  | append_singleton calls r ih =>
      have hsub : ((lastCalls calls).filter (·.name != r.name)).map (·.name) |>.Nodup :=
        ih.sublist (List.filter_sublist.map _)
      rw [lastCalls_append_singleton, List.map_append, List.map_singleton, List.nodup_append]
      refine ⟨hsub, List.nodup_singleton _, ?_⟩
      intro name hname name' hname'
      obtain ⟨s, hs, rfl⟩ := List.mem_map.mp hname
      rw [List.mem_singleton.mp hname']
      simpa using (List.mem_filter.mp hs).2

theorem lastCalls_eq_nil {calls : List (Registration network)} :
    lastCalls calls = [] ↔ calls = [] := by
  induction calls using List.reverseRecOn with
  | nil => exact Iff.rfl
  | append_singleton calls r _ => simp [lastCalls_append_singleton]

theorem find?_lastCalls (calls : List (Registration network)) (name : String) :
    (lastCalls calls).find? (·.name == name) = lastCall? calls name := by
  induction calls using List.reverseRecOn with
  | nil => rfl
  | append_singleton calls r ih =>
      rw [lastCalls_append_singleton, lastCall?, List.reverse_append, List.reverse_singleton,
        List.singleton_append, List.find?_append]
      by_cases hr : r.name = name
      · subst hr
        have hnone :
            ((lastCalls calls).filter (·.name != r.name)).find? (·.name == r.name) = none := by
          simp [List.find?_eq_none]
        rw [hnone, List.find?_cons_of_pos (by simp), Option.none_or,
          List.find?_cons_of_pos (by simp)]
      · have hkeep : ((lastCalls calls).filter (·.name != r.name)).find? (·.name == name) =
            (lastCalls calls).find? (·.name == name) := by
          rw [List.find?_filter]
          congr 1
          funext s
          by_cases hs : s.name = name
          · simp [hs, Ne.symm hr]
          · simp [hs]
        rw [hkeep, ih, List.find?_cons_of_neg (by simpa using hr), List.find?_nil, Option.or_none,
          List.find?_cons_of_neg (by simpa using hr), lastCall?]

theorem lastCall?_eq_none {calls : List (Registration network)} {name : String} :
    lastCall? calls name = none ↔ ∀ r ∈ calls, r.name ≠ name := by
  simp [lastCall?]

/-! ## Arrangements -/

/-- The entries are those of a list, by falling priority, and where priorities are equal in the
order of the list. -/
structure Arranged (calls entries : List (Registration network)) : Prop where
  perm : entries.Perm calls
  sorted : entries.Pairwise fun r s => s.priority ≤ r.priority
  stable : ∀ p, entries.filter (·.priority == p) = calls.filter (·.priority == p)

theorem Arranged.filter {calls entries : List (Registration network)} (h : Arranged calls entries)
    (keep : Registration network → Bool) :
    Arranged (calls.filter keep) (entries.filter keep) := by
  refine ⟨h.perm.filter keep, h.sorted.filter keep, fun p => ?_⟩
  rw [List.filter_comm, h.stable, List.filter_comm]

theorem perm_insertByPriority (r : Registration network) (l : List (Registration network)) :
    (insertByPriority r l).Perm (r :: l) := by
  induction l with
  | nil => exact List.Perm.refl _
  | cons s l ih =>
      unfold insertByPriority
      split
      · exact List.Perm.refl _
      · exact (ih.cons s).trans (List.Perm.swap r s l)

theorem sorted_insertByPriority (r : Registration network) {l : List (Registration network)}
    (h : l.Pairwise fun r s => s.priority ≤ r.priority) :
    (insertByPriority r l).Pairwise fun r s => s.priority ≤ r.priority := by
  induction l with
  | nil => exact List.pairwise_singleton _ _
  | cons s l ih =>
      obtain ⟨hs, hl⟩ := List.pairwise_cons.mp h
      unfold insertByPriority
      split
      case isTrue hlt =>
        refine List.pairwise_cons.mpr ⟨fun t ht => ?_, h⟩
        rcases List.mem_cons.mp ht with rfl | ht
        · exact hlt.le
        · exact (hs t ht).trans hlt.le
      case isFalse hge =>
        refine List.pairwise_cons.mpr ⟨fun t ht => ?_, ih hl⟩
        rcases List.mem_cons.mp ((perm_insertByPriority r l).mem_iff.mp ht) with rfl | ht
        · exact not_lt.mp hge
        · exact hs t ht

/-- Among entries of one priority the inserted one comes last. -/
theorem filter_insertByPriority (r : Registration network) {l : List (Registration network)}
    (h : l.Pairwise fun r s => s.priority ≤ r.priority) (p : Int) :
    (insertByPriority r l).filter (·.priority == p) =
      l.filter (·.priority == p) ++ [r].filter (·.priority == p) := by
  induction l with
  | nil => rfl
  | cons s l ih =>
      obtain ⟨hs, hl⟩ := List.pairwise_cons.mp h
      unfold insertByPriority
      split
      case isTrue hlt =>
        -- Everything behind the place of insertion has a lower priority.
        by_cases hp : r.priority = p
        · have hnone : (s :: l).filter (·.priority == p) = [] := by
            rw [List.filter_eq_nil_iff]
            intro t ht
            have hle : t.priority ≤ s.priority := by
              rcases List.mem_cons.mp ht with rfl | ht
              · exact le_rfl
              · exact hs t ht
            have hne : t.priority ≠ p := by omega
            simpa using hne
          rw [hnone, List.nil_append, List.filter_cons, hnone, List.filter_cons, List.filter_nil]
        · simp [hp]
      case isFalse hge =>
        rw [List.filter_cons, ih hl, List.filter_cons (x := s)]
        split <;> rfl

theorem Arranged.insert {calls entries : List (Registration network)} (h : Arranged calls entries)
    (r : Registration network) : Arranged (calls ++ [r]) (insertByPriority r entries) := by
  refine ⟨?_, sorted_insertByPriority r h.sorted, fun p => ?_⟩
  · calc (insertByPriority r entries).Perm (r :: entries) := perm_insertByPriority r entries
      _ |>.Perm (r :: calls) := h.perm.cons r
      _ |>.Perm (calls ++ [r]) := (List.perm_append_singleton r calls).symm
  · rw [filter_insertByPriority r h.sorted, h.stable, List.filter_append]

/-- The first entry is the first one of the highest priority. -/
theorem Arranged.head?_eq {calls entries : List (Registration network)}
    (h : Arranged calls entries) :
    entries.head? = calls.find? fun r => calls.all fun s => decide (s.priority ≤ r.priority) := by
  cases entries with
  | nil =>
      obtain rfl : [] = calls := h.perm.nil_eq
      rfl
  | cons r rest =>
      have hrest := (List.pairwise_cons.mp h.sorted).1
      have hmax : ∀ s ∈ calls, s.priority ≤ r.priority := by
        intro s hs
        rcases List.mem_cons.mp (h.perm.mem_iff.mpr hs) with rfl | hs
        · exact le_rfl
        · exact hrest s hs
      have hr : r ∈ calls := h.perm.mem_iff.mp List.mem_cons_self
      have hpred : ∀ s ∈ calls, (calls.all fun t => decide (t.priority ≤ s.priority)) =
          (s.priority == r.priority) := by
        intro s hs
        rw [Bool.eq_iff_iff, List.all_eq_true, beq_iff_eq]
        constructor
        · intro hall
          exact le_antisymm (hmax s hs) (of_decide_eq_true (hall r hr))
        · intro heq t ht
          rw [heq]
          exact decide_eq_true (hmax t ht)
      calc some r = ((r :: rest).filter (·.priority == r.priority)).head? := by simp
        _ = (calls.filter (·.priority == r.priority)).head? := by rw [h.stable]
        _ = calls.find? (·.priority == r.priority) := List.head?_filter ..
        _ = _ := (List.find?_congr hpred).symm

/-! ## Registries -/

/-- The registry that is left when backends are registered one after the other, none before them. -/
def registerAll (calls : List (Registration network)) : Logged (Registry network) :=
  calls.foldlM register empty

theorem value_register (registry : Registry network) (r : Registration network) :
    (registry.register r).value =
      ⟨insertByPriority r (registry.registrations.eraseP (·.name == r.name))⟩ := by
  unfold register
  split <;> rfl

theorem value_registerAll_append (calls : List (Registration network)) (r : Registration network) :
    (registerAll (calls ++ [r])).value = ((registerAll calls).value.register r).value := by
  rw [registerAll, List.foldlM_append, Logged.value_bind]
  rfl

/-- A registry holds the last registrations in their arrangement. -/
theorem arranged_registerAll (calls : List (Registration network)) :
    Arranged (lastCalls calls) (registerAll calls).value.registrations := by
  induction calls using List.reverseRecOn with
  | nil => exact ⟨List.Perm.refl _, List.Pairwise.nil, fun _ => rfl⟩
  | append_singleton calls r ih =>
      have hnodup : ((registerAll calls).value.registrations.map (·.name)).Nodup :=
        (ih.perm.map _).nodup_iff.mpr (nodup_lastCalls calls)
      rw [value_registerAll_append, value_register, eraseP_eq_filter_of_nodup hnodup,
        lastCalls_append_singleton]
      exact (ih.filter _).insert r

/-- The network that a backend makes. That it is called is the first thing to be noted. -/
def called (r : Registration network) (weights : Option WeightsFile) (o : Options) :
    Logged (Except BackendFault network) :=
  ⟨(r.create weights o).run.value, .creating r.name :: (r.create weights o).run.records⟩

theorem run_create (registry : Registry network) (name : String) (weights : Option WeightsFile)
    (o : Options) :
    (registry.create name weights o).run =
      match registry.registrations.find? (·.name == name) with
      | none => ⟨.error (.unknownBackend name), []⟩
      | some r => called r weights o := by
  unfold create
  cases registry.registrations.find? (·.name == name) with
  | none => rfl
  | some r => rfl

theorem run_createDefault {registry : Registry network} (h : registry.names.Nodup)
    (weights : Option WeightsFile) (o : Options) :
    (registry.createDefault weights o).run =
      match registry.registrations.head? with
      | none => ⟨.error .noBackends, []⟩
      | some r => called r weights o := by
  unfold createDefault default?
  cases hr : registry.registrations.head? with
  | none => rfl
  | some r =>
      -- The name of the first entry leads back to the first entry, as no other one has it.
      have hmem : r ∈ registry.registrations := List.mem_of_head? hr
      have hfind := find?_eq_some_of_nodup h hmem
      show (registry.create r.name weights o).run = _
      rw [run_create, hfind]

/-- How a registry tells of the registrations that were made. It holds the last one of each name,
arranged by priority, and the first one of the highest priority is the default. A name stands for
the backend that was registered under it last, and this one alone is called. -/
structure Reflects (calls : List (Registration network)) (registry : Registry network) : Prop where
  nodup : registry.names.Nodup
  arranged : Arranged (lastCalls calls) registry.registrations
  default?_eq : registry.default? = ((lastCalls calls).find? fun r =>
    (lastCalls calls).all fun s => decide (s.priority ≤ r.priority)).map (·.name)
  default?_eq_none : registry.default? = none ↔ calls = []
  create_eq : ∀ name weights o, (registry.create name weights o).run =
    match lastCall? calls name with
    | none => ⟨.error (.unknownBackend name), []⟩
    | some r => called r weights o
  /-- The fault of the registry itself. A constructor may end with the same fault, but then the record
  of its call stands in front of it. -/
  create_unknown : ∀ name weights o,
    (registry.create name weights o).run = ⟨.error (.unknownBackend name), []⟩ ↔
      ∀ r ∈ calls, r.name ≠ name
  createDefault_eq : ∀ weights o, (registry.createDefault weights o).run =
    match registry.registrations.head? with
    | none => ⟨.error .noBackends, []⟩
    | some r => called r weights o
  /-- The fault of the registry itself, as in `create_unknown`. -/
  createDefault_none : ∀ weights o,
    (registry.createDefault weights o).run = ⟨.error .noBackends, []⟩ ↔ calls = []

/-- Whatever backends are registered in whatever order, the registry reflects it. -/
theorem registerAll_reflects (calls : List (Registration network)) :
    Reflects calls (registerAll calls).value := by
  have harr := arranged_registerAll calls
  have hnodup : (registerAll calls).value.names.Nodup :=
    (harr.perm.map _).nodup_iff.mpr (nodup_lastCalls calls)
  have hfind (name : String) :
      (registerAll calls).value.registrations.find? (·.name == name) = lastCall? calls name := by
    rw [find?_perm harr.perm hnodup, find?_lastCalls]
  have hhead : (registerAll calls).value.registrations.head? = none ↔ calls = [] := by
    rw [List.head?_eq_none_iff, ← @lastCalls_eq_nil network calls]
    constructor
    · intro h
      exact List.perm_nil.mp (h ▸ harr.perm.symm)
    · intro h
      exact List.perm_nil.mp (h ▸ harr.perm)
  constructor
  case nodup => exact hnodup
  case arranged => exact harr
  case default?_eq => rw [default?, harr.head?_eq]
  case default?_eq_none => rw [default?, Option.map_eq_none_iff, hhead]
  case create_eq =>
    intro name weights o
    rw [run_create, hfind]
  case create_unknown =>
    intro name weights o
    rw [run_create, hfind, ← lastCall?_eq_none]
    cases lastCall? calls name with
    | none => simp
    | some r => simp [called]
  case createDefault_eq => exact run_createDefault hnodup
  case createDefault_none =>
    intro weights o
    rw [run_createDefault hnodup, ← hhead]
    cases (registerAll calls).value.registrations.head? with
    | none => simp
    | some r => simp [called]

end PieceSquare.Registry
