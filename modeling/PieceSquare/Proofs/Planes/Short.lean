import PieceSquare.Proofs.Evaluator.Batch
import PieceSquare.Proofs.Planes.Sides

set_option autoImplicit false

/-! # Lists of planes that are too short

Every request on a list of planes either has an answer or ends with the fault of the first plane that
is looked for and missing. A score counts the planes beforehand, so that it never looks for a plane in
vain. The phase and the terms do not count, and neither does `exchangeSides`: which plane is missed
depends on the order in which they look, and for the phase on what the planes show
(`Planes.phase_eq_error_iff`).
-/

namespace PieceSquare

/-! ## Single entries -/

theorem entry_eq_error_iff {α : Type} {xs : List α} {i : Nat} {fault : Fault} :
    entry xs i = .error fault ↔ xs.length ≤ i ∧ fault = .outOfRange xs.length i :=
  eq_error_iff_of_cases entry_of_le fun h => ⟨_, entry_of_lt (not_le.mp h)⟩

theorem exists_entry_eq_ok_iff {α : Type} {xs : List α} {i : Nat} :
    (∃ x, entry xs i = .ok x) ↔ i < xs.length := by
  constructor
  · rintro ⟨x, hx⟩
    by_contra h
    rw [entry_of_le (not_lt.mp h)] at hx
    cases hx
  · intro h
    exact ⟨_, entry_of_lt h⟩

/-- The kinds before a kind are those with a lower index. -/
theorem Kind.exists_all_eq (kind : Kind) : ∃ before after,
    Kind.all = before ++ kind :: after ∧ ∀ other ∈ before, other.index < kind.index := by
  refine ⟨Kind.all.take kind.index, Kind.all.drop (kind.index + 1), ?_, ?_⟩
  · cases kind <;> rfl
  · cases kind <;> decide

namespace Planes

variable {ps : Planes} {fault : Fault}

/-! ## Scores and values -/

theorem score_eq_error_iff : ps.score = .error fault ↔
    ps.length < pieceCount ∧ fault = .tooFewPlanes ps.length :=
  eq_error_iff_of_cases score_of_lt fun h => ⟨_, score_eq (not_lt.mp h)⟩

/-- A value misses what the score misses. -/
theorem valueWith_eq_error_iff {exp : Float32 → Float32} : ps.valueWith exp = .error fault ↔
    ps.length < pieceCount ∧ fault = .tooFewPlanes ps.length := by
  rw [valueWith, map_eq_error_iff, score_eq_error_iff]

/-! ## The phase -/

/-- Of a side the queen's plane is looked for first, and it is the last one that is needed. -/
theorem isLight_eq_error_iff {side : Side} : ps.isLight side = .error fault ↔
    ps.length ≤ slot side .queen ∧ fault = .outOfRange ps.length (slot side .queen) :=
  eq_error_iff_of_cases (fun h => by rw [isLight, mask_of_le h]; rfl)
    fun h => ⟨_, isLight_of_lt (not_le.mp h)⟩

theorem isLight_eq_ok_iff {side : Side} {light : Bool} : ps.isLight side = .ok light ↔
    slot side .queen < ps.length ∧ ps.men.light side = light := by
  constructor
  · intro h
    have hlength : slot side .queen < ps.length := by
      by_contra hle
      rw [isLight_eq_error_iff.mpr ⟨not_lt.mp hle, rfl⟩] at h
      cases h
    rw [isLight_of_lt hlength] at h
    exact ⟨hlength, Except.ok.inj h⟩
  · rintro ⟨h, rfl⟩
    exact isLight_of_lt h

/-- The opponent is looked at only when the own side is light. -/
theorem phase_eq_error_iff_isLight : ps.phase = .error fault ↔ ps.isLight .own = .error fault ∨
    ps.isLight .own = .ok true ∧ ps.isLight .opponent = .error fault := by
  have hopponent : (do
      if ← ps.isLight .opponent then return .endgame else return .middlegame :
        Except Fault Phase) = .error fault ↔ ps.isLight .opponent = .error fault := by
    rw [bind_eq_error_iff, or_iff_left]
    rintro ⟨light, -, h⟩
    cases light <;> cases h
  rw [phase, bind_eq_error_iff]
  refine or_congr_right ?_
  constructor
  · rintro ⟨light, hlight, h⟩
    cases light with
    | false => cases h
    | true => exact ⟨hlight, hopponent.mp h⟩
  · rintro ⟨hlight, h⟩
    exact ⟨true, hlight, hopponent.mpr h⟩

theorem phase_eq_error_iff : ps.phase = .error fault ↔
    ps.length ≤ 4 ∧ fault = .outOfRange ps.length 4 ∨
      5 ≤ ps.length ∧ ps.length ≤ 10 ∧ ps.men.light .own = true ∧
        fault = .outOfRange ps.length 10 := by
  rw [phase_eq_error_iff_isLight, isLight_eq_error_iff, isLight_eq_error_iff, isLight_eq_ok_iff]
  refine or_congr_right ?_
  constructor
  · rintro ⟨⟨hown, hlight⟩, hopponent, rfl⟩
    exact ⟨hown, hopponent, hlight, rfl⟩
  · rintro ⟨hown, hopponent, hlight, rfl⟩
    exact ⟨⟨hown, hlight⟩, hopponent, rfl⟩

/-- No plane of the opponent is needed when the own side is not light. -/
theorem phase_of_not_light (h : 5 ≤ ps.length) (hlight : ps.men.light .own = false) :
    ps.phase = .ok .middlegame := by
  have hown : ps.isLight .own = .ok false := isLight_eq_ok_iff.mpr ⟨h, hlight⟩
  rw [phase, hown]
  rfl

/-! ## The planes of a kind -/

/-- The fault of looking for the own plane of a kind and then for the opponent's. -/
def Misses (ps : Planes) (kind : Kind) (fault : Fault) : Prop :=
  ps.length ≤ kind.index ∧ fault = .outOfRange ps.length kind.index ∨
    kind.index < ps.length ∧ ps.length ≤ 6 + kind.index ∧
      fault = .outOfRange ps.length (6 + kind.index)

/-- Looking for the two planes of a kind fails if one of them is missing. -/
theorem entries_eq_error_iff {α : Type} {kind : Kind} {f : Plane → Plane → α} :
    (do return f (← entry ps (slot .own kind)) (← entry ps (slot .opponent kind)) :
      Except Fault α) = .error fault ↔ ps.Misses kind fault := by
  rw [bind_eq_error_iff, entry_eq_error_iff, slot_own, Misses]
  refine or_congr_right ?_
  constructor
  · rintro ⟨own, hown, h⟩
    rcases bind_eq_error_iff.mp h with hopponent | ⟨opponent, -, ⟨⟩⟩
    exact ⟨exists_entry_eq_ok_iff.mp ⟨own, hown⟩, entry_eq_error_iff.mp hopponent⟩
  · rintro ⟨hown, hopponent⟩
    obtain ⟨own, hown⟩ := exists_entry_eq_ok_iff.mpr hown
    exact ⟨own, hown, bind_eq_error_iff.mpr (.inl (entry_eq_error_iff.mpr hopponent))⟩

theorem term_eq_error_iff {kind : Kind} {phase : Phase} :
    ps.term kind phase = .error fault ↔ ps.Misses kind fault := by
  rw [← entries_eq_error_iff (f := fun own opponent => dot own.mask (.ofKind kind phase) -
    dot opponent.mask.flip (.ofKind kind phase))]
  rw [term, mask, mask]
  cases entry ps (slot .own kind) with
  | error => rfl
  | ok own => cases entry ps (slot .opponent kind) <;> rfl

/-! ## The other side of the board -/

theorem exchangeKind_eq_error_iff {out : Planes} {kind : Kind} :
    exchangeKind ps out kind = .error fault ↔ ps.Misses kind fault :=
  entries_eq_error_iff

theorem exists_exchangeKind (out : Planes) {kind : Kind} (h : 6 + kind.index < ps.length) :
    ∃ out', exchangeKind ps out kind = .ok out' := by
  cases hout : exchangeKind ps out kind with
  | ok out' => exact ⟨out', rfl⟩
  | error fault =>
      rcases exchangeKind_eq_error_iff.mp hout with ⟨hle, -⟩ | ⟨-, hle, -⟩ <;> omega

/-- The kinds are gone through up to the first one that misses a plane. -/
theorem foldlM_exchangeKind {before after : List Kind} {kind : Kind} (out : Planes)
    (hbefore : ∀ other ∈ before, 6 + other.index < ps.length) (hmisses : ps.Misses kind fault) :
    (before ++ kind :: after).foldlM (exchangeKind ps) out = .error fault := by
  induction before generalizing out with
  | nil =>
      rw [List.nil_append, List.foldlM_cons, exchangeKind_eq_error_iff.mpr hmisses]
      rfl
  | cons first before ih =>
      obtain ⟨hfirst, hbefore⟩ := List.forall_mem_cons.mp hbefore
      obtain ⟨out', hout⟩ := exists_exchangeKind out hfirst
      rw [List.cons_append, List.foldlM_cons, hout, ok_bind, ih out' hbefore]

/-- Pawns miss a plane of up to six. Of seven planes or more the first kind that misses one is the
kind whose opponent's plane would be the next of the list. -/
theorem exchangeSides_eq_error_iff : ps.exchangeSides = .error fault ↔
    ps.length < pieceCount ∧
      fault = .outOfRange ps.length (if ps.length = 0 then 0 else max 6 ps.length) := by
  refine eq_error_iff_of_cases (fun h => ?_) fun h => ⟨_, exchangeSides_eq (not_lt.mp h)⟩
  unfold pieceCount at h
  obtain ⟨kind, hkind⟩ := Kind.exists_index (i := ps.length - 6) (by omega)
  obtain ⟨before, after, hall, hbefore⟩ := Kind.exists_all_eq kind
  rw [exchangeSides, hall]
  refine foldlM_exchangeKind ps (fun other hother => ?_) ?_
  · have hother := hbefore other hother
    omega
  · rw [Misses, hkind]
    split_ifs with hzero
    · exact .inl ⟨by omega, by congr 1; omega⟩
    · exact .inr ⟨by omega, by omega, by congr 1; omega⟩

/-- The index that `exchangeSides` misses, for short lists of every length. -/
theorem eq_outOfRange_max_iff {n : Nat} :
    (n < pieceCount ∧ fault = .outOfRange n (if n = 0 then 0 else max 6 n)) ↔
      n = 0 ∧ fault = .outOfRange 0 0 ∨
        1 ≤ n ∧ n ≤ 6 ∧ fault = .outOfRange n 6 ∨
        7 ≤ n ∧ n < 12 ∧ fault = .outOfRange n n := by
  unfold pieceCount
  have hlength : n = 0 ∨ 1 ≤ n ∧ n ≤ 6 ∨ 7 ≤ n := by omega
  rcases hlength with rfl | ⟨hpos, hle⟩ | hlt
  · simp
  · rw [if_neg (by omega), max_eq_left hle]
    simp [hpos, hle, show n < 12 by omega, show n ≠ 0 by omega, show ¬ 7 ≤ n by omega]
  · rw [if_neg (by omega), max_eq_right (by omega)]
    simp [hlt, show n ≠ 0 by omega, show ¬ n ≤ 6 by omega]

/-! ## All requests -/

/-- How the requests on a list of planes fail, by the length of the list and, for the phase, by what
is shown of the own side. -/
structure FailsWhenShort (ps : Planes) : Prop where
  score : ∀ fault, ps.score = .error fault ↔
    ps.length < 12 ∧ fault = .tooFewPlanes ps.length
  valueWith : ∀ exp fault, ps.valueWith exp = .error fault ↔
    ps.length < 12 ∧ fault = .tooFewPlanes ps.length
  value : ∀ fault, ps.value = .error fault ↔
    ps.length < 12 ∧ fault = .tooFewPlanes ps.length
  add : ∀ batch fault, ((Batch.add ps).runOn batch).value.1 = .error fault ↔
    ps.length < 12 ∧ fault = .tooFewPlanes ps.length
  message : (Fault.tooFewPlanes ps.length).message = s!"need 12 piece planes, got {ps.length}"
  phase : ∀ fault, ps.phase = .error fault ↔
    ps.length ≤ 4 ∧ fault = .outOfRange ps.length 4 ∨
      5 ≤ ps.length ∧ ps.length ≤ 10 ∧ ps.men.light .own = true ∧
        fault = .outOfRange ps.length 10
  middlegame : 5 ≤ ps.length → ps.length ≤ 10 → ps.men.light .own = false →
    ps.phase = .ok .middlegame
  term : ∀ kind phase fault, ps.term kind phase = .error fault ↔
    ps.length ≤ kind.index ∧ fault = .outOfRange ps.length kind.index ∨
      kind.index < ps.length ∧ ps.length ≤ 6 + kind.index ∧
        fault = .outOfRange ps.length (6 + kind.index)
  exchangeSides : ∀ fault, ps.exchangeSides = .error fault ↔
    ps.length = 0 ∧ fault = .outOfRange 0 0 ∨
      1 ≤ ps.length ∧ ps.length ≤ 6 ∧ fault = .outOfRange ps.length 6 ∨
      7 ≤ ps.length ∧ ps.length < 12 ∧ fault = .outOfRange ps.length ps.length

theorem failsWhenShort (ps : Planes) : ps.FailsWhenShort := by
  constructor
  case score => exact fun _ => score_eq_error_iff
  case valueWith => exact fun _ _ => valueWith_eq_error_iff
  case value => exact fun _ => valueWith_eq_error_iff
  case add =>
    intro batch fault
    have hadd : ((Batch.add ps).runOn batch).value.1 = .error fault ↔ ps.value = .error fault := by
      rw [Batch.value_add]
      cases ps.value <;> simp
    exact hadd.trans valueWith_eq_error_iff
  case message => rfl
  case phase => exact fun _ => phase_eq_error_iff
  case middlegame => exact fun h _ hlight => phase_of_not_light h hlight
  case term => exact fun _ _ _ => term_eq_error_iff
  case exchangeSides => exact fun _ => exchangeSides_eq_error_iff.trans eq_outOfRange_max_iff

/-- Of five planes, those of a side without a queen do not settle the phase. -/
example : phase (List.replicate 5 .empty) = .error (.outOfRange 5 10) := rfl

end Planes

end PieceSquare
