import PieceSquare.Session
import PieceSquare.Proofs.Evaluator.Batch

set_option autoImplicit false

/-! # Sessions as lists of positions

All that a batch can show are the positions that have been added to it since it was last reset. A
request is answered from these positions alone (`Request.expected`), whatever else has been asked
before, of this batch or of others. One request keeps the agreement between the values that a batch
stores and the positions in it (`Batch.Holds`), failed requests included, and so does a run, by
induction on the steps.
-/

namespace PieceSquare

/-! ## Positions in place of batches -/

namespace Request

/-- The positions in a batch after a request. Only a reset and an addition change them, and what has
fewer than twelve planes cannot be added. -/
def after (positions : List Planes) : Request → List Planes
  | reset => []
  | add ps => if Planes.pieceCount ≤ ps.length then positions ++ [ps] else positions
  | _ => positions

/-- The answer to a request that concerns a batch with given positions. -/
def expected (positions : List Planes) : Request → Except Fault Answer
  | reset => .ok .done
  | add ps =>
    if Planes.pieceCount ≤ ps.length then .ok (.size (positions.length + 1))
    else .error (.tooFewPlanes ps.length)
  | compute => .ok .done
  | size => .ok (.size positions.length)
  | value sample => (entry positions sample >>= Planes.value).map .number
  | values => (positions.mapM Planes.value).map .numbers
  | draw _ => .ok (.number 0)
  | movesLeft _ => .ok (.number 0)
  | policy _ move =>
    if h : move < policySize then .ok (.number (logPolicy.get ⟨move, h⟩))
    else .error (.outOfRange policySize move)

end Request

/-- The positions in the batch with a number after some steps, where these are in it before. -/
def heldAfter (positions : List Planes) (number : Nat) (steps : List (Nat × Request)) :
    List Planes :=
  steps.foldl (fun positions step =>
    if step.1 = number then step.2.after positions else positions) positions

/-! ## One request -/

namespace Batch

/-- A batch holds the values of some positions, in order. -/
def Holds (b : Batch) (positions : List Planes) : Prop :=
  List.Forall₂ (fun ps v => ps.value = .ok v) positions b.values

theorem Holds.add {b : Batch} {positions : List Planes} (h : b.Holds positions) {ps : Planes}
    {v : Float32} (hv : ps.value = .ok v) : Holds ⟨b.values ++ [v]⟩ (positions ++ [ps]) :=
  List.rel_append h (.cons hv .nil)

/-- The value of a sample is that of the position at its place. -/
theorem Holds.value_eq {b : Batch} {positions : List Planes} (h : b.Holds positions)
    (sample : Nat) : b.value sample = entry positions sample >>= Planes.value := by
  have hlen : positions.length = b.values.length := h.length_eq
  unfold value
  by_cases hs : sample < positions.length
  · rw [entry_of_lt hs, entry_of_lt (hlen ▸ hs)]
    exact (h.get hs (hlen ▸ hs)).symm
  · rw [entry_of_le (by omega), entry_of_le (by omega), hlen]
    rfl

/-- What a batch answers to a request, and the batch that the request leaves. -/
def answered (b : Batch) (r : Request) : Except Fault Answer × Batch := ((answer r).runOn b).value

theorem answered_add (b : Batch) (ps : Planes) :
    b.answered (.add ps) =
      match ps.value with
      | .error fault => (.error fault, b)
      | .ok v => (.ok (.size (b.values.length + 1)), ⟨b.values ++ [v]⟩) := by
  show ((add ps >>= fun _ => do return Answer.size (← get).size).runOn b).value = _
  rw [BatchAction.value_bind, value_add]
  cases ps.value with
  | error fault => rfl
  | ok v =>
      show (Except.ok (Answer.size (b.values ++ [v]).length), _) = _
      rw [List.length_append]
      rfl

theorem answered_value (b : Batch) (sample : Nat) :
    b.answered (.value sample) = ((b.value sample).map .number, b) := by
  show ((ofExcept (b.value sample) >>= fun v => return Answer.number v : BatchAction _).runOn
    b).value = _
  rw [BatchAction.value_bind, BatchAction.value_ofExcept]
  cases b.value sample <;> rfl

theorem answered_policy (b : Batch) (sample move : Nat) :
    b.answered (.policy sample move) = ((b.policy sample move).map .number, b) := by
  show ((ofExcept (b.policy sample move) >>= fun v => return Answer.number v : BatchAction _).runOn
    b).value = _
  rw [BatchAction.value_bind, BatchAction.value_ofExcept]
  cases b.policy sample move <;> rfl

/-- Where a request cannot be answered, it leaves the batch unchanged. -/
theorem answered_of_error {b : Batch} {r : Request} {fault : Fault}
    (h : (b.answered r).1 = .error fault) : (b.answered r).2 = b := by
  cases r with
  | add ps =>
      rw [answered_add] at h ⊢
      cases hv : ps.value with
      | error fault' => rfl
      | ok v =>
          rw [hv] at h
          cases h
  | value sample => rw [answered_value]
  | policy sample move => rw [answered_policy]
  | reset => cases h
  | _ => rfl

theorem Holds.answered_add {b : Batch} {positions : List Planes} (h : b.Holds positions)
    (ps : Planes) : (b.answered (.add ps)).1 = (Request.add ps).expected positions ∧
      (b.answered (.add ps)).2.Holds ((Request.add ps).after positions) := by
  rw [Batch.answered_add, ← h.length_eq]
  by_cases hps : Planes.pieceCount ≤ ps.length
  · have hv := Planes.value_eq hps
    rw [hv, Request.expected, Request.after, if_pos hps, if_pos hps]
    exact ⟨rfl, h.add hv⟩
  · rw [Planes.value_of_lt (not_le.mp hps), Request.expected, Request.after, if_neg hps, if_neg hps]
    exact ⟨rfl, h⟩

/-- A batch answers every request as the positions tell that it holds, and holds the positions after
the request then. -/
theorem Holds.answered {b : Batch} {positions : List Planes} (h : b.Holds positions)
    (r : Request) : (b.answered r).1 = r.expected positions ∧
      (b.answered r).2.Holds (r.after positions) := by
  cases r with
  | reset => exact ⟨rfl, .nil⟩
  | add ps => exact h.answered_add ps
  | compute => exact ⟨rfl, h⟩
  | size => exact ⟨congrArg (Except.ok ∘ Answer.size) h.length_eq.symm, h⟩
  | value sample =>
      rw [answered_value, h.value_eq]
      exact ⟨rfl, h⟩
  | values =>
      refine ⟨?_, h⟩
      rw [Request.expected, mapM_eq_ok_of_forall₂ h]
      rfl
  | draw sample => exact ⟨rfl, h⟩
  | movesLeft sample => exact ⟨rfl, h⟩
  | policy sample move =>
      rw [answered_policy, policy, Request.expected]
      refine ⟨?_, h⟩
      split <;> rfl

end Batch

/-! ## Runs -/

namespace Session

theorem value_step (s : Session) (number : Nat) (r : Request) :
    (s.step number r).value =
      (((s.batch number).answered r).1, s.put number ((s.batch number).answered r).2) := rfl

/-- A step answers as the positions in its batch tell, and keeps the agreement of all batches with
their positions. -/
theorem step_expected {s : Session} {held : Nat → List Planes}
    (h : ∀ number, (s.batch number).Holds (held number)) (number : Nat) (r : Request) :
    (s.step number r).value.1 = r.expected (held number) ∧
      ∀ other, ((s.step number r).value.2.batch other).Holds
        (if number = other then r.after (held other) else held other) := by
  obtain ⟨hanswer, hheld⟩ := (h number).answered r
  refine ⟨hanswer, fun other => ?_⟩
  rw [value_step, batch_put]
  by_cases ho : other = number
  · rw [if_pos ho, if_pos ho.symm, ho]
    exact hheld
  · rw [if_neg ho, if_neg (Ne.symm ho)]
    exact h other

theorem value_run_cons (s : Session) (step : Nat × Request) (steps : List (Nat × Request)) :
    (s.run (step :: steps)).value =
      ((s.step step.1 step.2).value.1 :: ((s.step step.1 step.2).value.2.run steps).value.1,
        ((s.step step.1 step.2).value.2.run steps).value.2) := rfl

/-- A run answers each step as the positions tell that the earlier steps have left in its batch. -/
theorem run_expected {s : Session} {held : Nat → List Planes}
    (h : ∀ number, (s.batch number).Holds (held number)) (steps : List (Nat × Request)) :
    (s.run steps).value.1 = (steps.zipIdx.map fun (step, k) =>
        step.2.expected (heldAfter (held step.1) step.1 (steps.take k))) ∧
      ∀ number, ((s.run steps).value.2.batch number).Holds
        (heldAfter (held number) number steps) := by
  induction steps generalizing s held with
  | nil => exact ⟨rfl, h⟩
  | cons step steps ih =>
      obtain ⟨hanswer, hheld⟩ := step_expected h step.1 step.2
      obtain ⟨hanswers, hend⟩ := ih hheld
      rw [value_run_cons]
      refine ⟨?_, fun number => hend number⟩
      rw [List.zipIdx_cons, List.map_cons, hanswer, hanswers, Nat.zero_add, List.zipIdx_succ,
        List.map_map]
      rfl

/-! ## What a step leaves alone -/

/-- What a step does not change. Computing changes no batch, a failed request leaves the session as
it was, such as one to add a position of too few planes, and the other batches are never touched. -/
structure Frame (s : Session) (number : Nat) : Prop where
  compute : ∀ other, (s.step number .compute).value.2.batch other = s.batch other
  failed : ∀ r fault, (s.step number r).value.1 = .error fault → (s.step number r).value.2 = s
  refused : ∀ ps : Planes, ps.length < Planes.pieceCount →
    (s.step number (.add ps)).value = (.error (.tooFewPlanes ps.length), s)
  others : ∀ r other, other ≠ number → (s.step number r).value.2.batch other = s.batch other

theorem frame (s : Session) (number : Nat) : Frame s number := by
  constructor
  case compute =>
    intro other
    show (s.put number (s.batch number)).batch other = _
    rw [put_batch]
  case failed =>
    intro r fault h
    rw [value_step] at h ⊢
    rw [Batch.answered_of_error h, put_batch]
  case refused =>
    intro ps hps
    rw [value_step, Batch.answered_add, Planes.value_of_lt hps, put_batch]
  case others =>
    intro r other hother
    rw [value_step]
    exact (batch_put ..).trans (if_neg hother)

/-- The answers to the steps that concern the batch with a number. -/
def answersOf (number : Nat) (steps : List (Nat × Request))
    (answers : List (Except Fault Answer)) : List (Except Fault Answer) :=
  ((steps.zip answers).filter (·.1.1 == number)).map (·.2)

/-- Steps on other batches could as well be left out. -/
theorem answersOf_run {s s' : Session} {number : Nat} (h : s.batch number = s'.batch number)
    (steps : List (Nat × Request)) :
    answersOf number steps (s.run steps).value.1 =
      (s'.run (steps.filter (·.1 == number))).value.1 := by
  -- The two runs agree on the one batch, while the other batches may differ.
  induction steps generalizing s s' with
  | nil => rfl
  | cons step steps ih =>
      rw [value_run_cons, answersOf, List.zip_cons_cons]
      by_cases hstep : step.1 = number
      · have hsame : (s.step step.1 step.2).value.1 = (s'.step step.1 step.2).value.1 ∧
            (s.step step.1 step.2).value.2.batch number =
              (s'.step step.1 step.2).value.2.batch number := by
          rw [value_step, value_step, hstep, h, batch_put, batch_put, if_pos rfl, if_pos rfl]
          exact ⟨rfl, rfl⟩
        rw [List.filter_cons_of_pos (by simpa using hstep), List.map_cons,
          List.filter_cons_of_pos (by simpa using hstep), value_run_cons, hsame.1]
        exact congrArg (_ :: ·) (ih hsame.2)
      · have hother := (frame s step.1).others step.2 number (Ne.symm hstep)
        rw [List.filter_cons_of_neg (by simpa using hstep),
          List.filter_cons_of_neg (by simpa using hstep)]
        exact ih (hother.trans h)

/-- A session behaves like lists of positions, whatever is asked and in whatever order. Each step is
answered as the positions tell that have been added to its batch since it was last reset, and these
are what the batches hold in the end. The answers of a batch are those that it gives when the steps
on other batches are left out, and steps leave alone what does not concern them. -/
theorem run_empty_expected (steps : List (Nat × Request)) :
    (empty.run steps).value.1 = (steps.zipIdx.map fun (step, k) =>
        step.2.expected (heldAfter [] step.1 (steps.take k))) ∧
      (∀ number, ((empty.run steps).value.2.batch number).Holds (heldAfter [] number steps)) ∧
      (∀ number, answersOf number steps (empty.run steps).value.1 =
        (empty.run (steps.filter (·.1 == number))).value.1) ∧
      ∀ s number, Frame s number := by
  have hempty : ∀ number, (empty.batch number).Holds [] := fun _ => .nil
  obtain ⟨hanswers, hend⟩ := run_expected hempty steps
  exact ⟨hanswers, hend, fun _ => answersOf_run rfl steps, frame⟩

end Session

end PieceSquare
