import PieceSquare.Evaluator
import PieceSquare.Proofs.Fallible
import PieceSquare.Proofs.Planes.Sides

set_option autoImplicit false

/-! # The values in a batch

Adding a position to a batch adds its value, and adding some positions adds their values in order.
An addition fails exactly as the evaluation of the position does, which is when there are fewer than
twelve planes, and then the batch stays as it is. Records do not matter here: everything is said of the
value of an action.
-/

namespace PieceSquare

/-! ## Actions that leave records and may fail -/

/-- The value of two actions in a row. -/
theorem Logged.value_run_bind {ε α β : Type} (x : ExceptT ε Logged α)
    (f : α → ExceptT ε Logged β) :
    (x >>= f).run.value = x.run.value >>= fun a => (f a).run.value := by
  rw [ExceptT.run_bind, Logged.value_bind]
  cases x.run.value <;> rfl

/-- Two actions on a batch in a row. The second one finds the batch as the first one has left it. -/
theorem BatchAction.value_bind {α β : Type} (x : BatchAction α) (f : α → BatchAction β)
    (b : Batch) : ((x >>= f).runOn b).value =
      match (x.runOn b).value with
      | (.error fault, b') => (.error fault, b')
      | (.ok a, b') => ((f a).runOn b').value := by
  show ((x.runOn b >>= fun p => (ExceptT.bindCont f p.1).run p.2 : Logged _)).value = _
  rw [Logged.value_bind]
  obtain ⟨⟨result, b'⟩, records⟩ := x.runOn b
  cases result <;> rfl

/-- The second action does not take place where the first one fails. -/
theorem BatchAction.bind_of_error {α β : Type} {x : BatchAction α} {b : Batch} {fault : Fault}
    (h : (x.runOn b).value.1 = .error fault) (f : α → BatchAction β) :
    ((x >>= f).runOn b).value.1 = .error fault := by
  rw [value_bind]
  generalize (x.runOn b).value = left at h ⊢
  obtain ⟨result, b'⟩ := left
  obtain rfl : result = .error fault := h
  rfl

/-- What is asked of a batch leaves it unchanged. -/
theorem BatchAction.value_ofExcept {α : Type} (x : Except Fault α) (b : Batch) :
    ((ofExcept x : BatchAction α).runOn b).value = (x, b) := by
  cases x <;> rfl

/-! ## Values of positions -/

/-- Twelve planes have a value. -/
theorem Planes.value_eq {ps : Planes} (h : pieceCount ≤ ps.length) :
    ps.value = .ok (squash ps.men.score) := valueWith_eq _ h

/-- Fewer planes have none. -/
theorem Planes.value_of_lt {ps : Planes} (h : ps.length < pieceCount) :
    ps.value = .error (.tooFewPlanes ps.length) := by
  rw [Planes.value, Planes.valueWith, score_of_lt h]
  rfl

/-! ## Batches -/

namespace Batch

/-- A position is added by its value, or not at all. -/
theorem value_add (b : Batch) (ps : Planes) :
    ((add ps).runOn b).value =
      match ps.value with
      | .error fault => (.error fault, b)
      | .ok v => (.ok (), ⟨b.values ++ [v]⟩) := by
  unfold add
  cases ps.value <;> rfl

/-- What cannot be added leaves the batch unchanged. -/
theorem add_of_error {b : Batch} {ps : Planes} {fault : Fault}
    (h : ((add ps).runOn b).value.1 = .error fault) : ((add ps).runOn b).value.2 = b := by
  rw [value_add] at h ⊢
  cases hv : ps.value with
  | error fault' => rfl
  | ok v =>
      rw [hv] at h
      cases h

/-- Positions that all have a value are added by their values in order. -/
theorem value_forM_add {positions : List Planes} {vs : List Float32}
    (h : List.Forall₂ (fun ps v => ps.value = .ok v) positions vs) (b : Batch) :
    ((positions.forM add).runOn b).value = (.ok (), ⟨b.values ++ vs⟩) := by
  induction h generalizing b with
  | nil =>
      rw [List.append_nil]
      rfl
  | @cons ps v positions vs hv _ ih =>
      show ((add ps >>= fun _ => positions.forM add).runOn b).value = _
      rw [BatchAction.value_bind, value_add, hv]
      show ((positions.forM add).runOn ⟨b.values ++ [v]⟩).value = _
      rw [ih, List.append_assoc]
      rfl

/-- An addition of positions fails like the first one of them that has no value. -/
theorem forM_add_of_error {positions : List Planes} {fault : Fault}
    (h : positions.mapM Planes.value = .error fault) (b : Batch) :
    ((positions.forM add).runOn b).value.1 = .error fault := by
  induction positions generalizing b with
  | nil => cases h
  | cons ps positions ih =>
      rw [List.mapM_cons] at h
      show ((add ps >>= fun _ => positions.forM add).runOn b).value.1 = _
      rw [BatchAction.value_bind, value_add]
      cases hv : ps.value with
      | error fault' =>
          rw [hv] at h
          cases h
          rfl
      | ok v =>
          rw [hv, ok_bind, bind_eq_error_iff] at h
          rcases h with h | ⟨vs, -, h⟩
          · exact ih h _
          · cases h

end Batch

end PieceSquare
