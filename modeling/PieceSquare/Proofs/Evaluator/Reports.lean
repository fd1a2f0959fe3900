import PieceSquare.Proofs.CommandLine.Stages
import PieceSquare.Proofs.Evaluator.Batch

set_option autoImplicit false

/-! # Reports do not depend on batches and threads

Positions are cut into batches, and the reports on a batch are found by the number of each position
in it. Nothing of this can be seen in the reports: there is one for each position, in order, and it
is the one that the position gets alone. The evaluation of a batch is that of its positions one by
one (`evaluateBatch_eq_mapM`). What a pool of threads collects from the batches are the reports on
their positions in order, so an evaluation in chunks is an evaluation of the whole list
(`evaluateAll_eq_ok_iff`).
-/

namespace PieceSquare

/-! ## Lists in chunks -/

/-- Work on the chunks of a list is work on the list. -/
theorem mapM_mapM_flatten {ε α β : Type} (f : α → Except ε β) (chunks : List (List α)) :
    (chunks.mapM fun chunk : List α => chunk.mapM f).map List.flatten = chunks.flatten.mapM f := by
  induction chunks with
  | nil => rfl
  | cons chunk chunks ih =>
      rw [List.flatten_cons, List.mapM_append, List.mapM_cons, ← ih]
      cases chunk.mapM f with
      | error e => rfl
      | ok ys =>
          cases chunks.mapM fun chunk : List α => chunk.mapM f with
          | error e => rfl
          | ok yss => rfl

/-- A list in chunks of `size` elements, or of one where `size` is zero. Only the last chunk may be
shorter, and none is empty. -/
structure Chunked {α : Type} (size : Nat) (xs : List α) (chunks : List (List α)) : Prop where
  flatten : chunks.flatten = xs
  pos : ∀ chunk ∈ chunks, 0 < chunk.length
  le : ∀ chunk ∈ chunks, chunk.length ≤ max 1 size
  full : ∀ chunk ∈ chunks.dropLast, chunk.length = max 1 size

theorem chunked_chunks {α : Type} (size : Nat) (xs : List α) :
    Chunked size xs (chunks size xs) := by
  fun_induction chunks size xs with
  | case1 => exact ⟨rfl, by simp, by simp, by simp⟩
  | case2 x xs ih =>
      have hlen : (x :: xs.take (size - 1)).length = min (size - 1) xs.length + 1 := by simp
      refine ⟨?_, ?_, ?_, ?_⟩
      · rw [List.flatten_cons, ih.flatten, List.cons_append, List.take_append_drop]
      · intro chunk hc
        rcases List.mem_cons.mp hc with rfl | hc
        · omega
        · exact ih.pos chunk hc
      · intro chunk hc
        rcases List.mem_cons.mp hc with rfl | hc
        · omega
        · exact ih.le chunk hc
      · -- Where a chunk follows, there are elements left for it.
        intro chunk hc
        cases hrest : chunks size (xs.drop (size - 1)) with
        | nil => rw [hrest] at hc; cases hc
        | cons next rest =>
            rw [hrest, List.dropLast_cons_cons] at hc
            rcases List.mem_cons.mp hc with rfl | hc
            · have hpos := ih.pos next (by rw [hrest]; exact List.mem_cons_self)
              have hsum := congrArg List.length ih.flatten
              rw [hrest, List.flatten_cons, List.length_append, List.length_drop] at hsum
              omega
            · exact ih.full chunk (by rw [hrest]; exact hc)

/-! ## Batches of positions -/

/-- The report on a position with a given value. -/
def Report.ofValue (top : Nat) (fen : String) (value : Float32) : Report where
  fen := fen
  value := value
  draw := 0
  movesLeft := 0
  topMoves := PieceSquare.topMoves logPolicy.get top

/-- The report on a position, made of its planes without any batch. -/
def reportOn (top : Nat) (input : String × Planes) : Except Fault Report :=
  input.2.value.map (Report.ofValue top input.1)

theorem Batch.report_eq (b : Batch) (sample : Nat) (fen : String) (top : Nat) :
    b.report sample fen top = (entry b.values sample).map (Report.ofValue top fen) := by
  unfold Batch.report Batch.value
  cases entry b.values sample <;> rfl

/-- Samples are found at the places of their positions. -/
theorem mapM_report (before : List Float32) {inputs : List (String × Planes)}
    {values : List Float32} {top : Nat} (h : (inputs.map (·.2)).mapM Planes.value = .ok values) :
    ((inputs.zipIdx before.length).mapM fun ((fen, _), sample) =>
      (Batch.mk (before ++ values)).report sample fen top) = inputs.mapM (reportOn top) := by
  -- The values in front of the remaining positions grow by one with each position.
  induction inputs generalizing before values with
  | nil => rfl
  | cons input inputs ih =>
      rw [List.map_cons, List.mapM_cons] at h
      cases hv : input.2.value with
      | error fault => rw [hv] at h; cases h
      | ok v =>
          cases hvs : (inputs.map (·.2)).mapM Planes.value with
          | error fault => rw [hv, hvs] at h; cases h
          | ok vs =>
              obtain rfl : v :: vs = values := by
                rw [hv, hvs] at h
                exact Except.ok.inj h
              have hhead : (Batch.mk (before ++ v :: vs)).report before.length input.1 top =
                  reportOn top input := by
                rw [Batch.report_eq, entry_of_lt (by simp), reportOn, hv]
                simp
              have htail := ih (before ++ [v]) hvs
              rw [List.length_append, List.append_assoc] at htail
              rw [List.zipIdx_cons, List.mapM_cons, List.mapM_cons]
              show ((Batch.mk (before ++ v :: vs)).report before.length input.1 top >>= _) = _
              rw [hhead]
              congr 1
              funext r
              exact congrArg (· >>= _) htail

theorem mapM_reportOn_of_error {inputs : List (String × Planes)} {fault : Fault} (top : Nat)
    (h : (inputs.map (·.2)).mapM Planes.value = .error fault) :
    inputs.mapM (reportOn top) = .error fault := by
  induction inputs with
  | nil => cases h
  | cons input inputs ih =>
      rw [List.map_cons, List.mapM_cons] at h
      rw [List.mapM_cons, reportOn]
      cases hv : input.2.value with
      | error fault' =>
          rw [hv] at h
          cases h
          rfl
      | ok v =>
          cases hvs : (inputs.map (·.2)).mapM Planes.value with
          | error fault' =>
              rw [hv, hvs] at h
              cases h
              rw [ih hvs]
              rfl
          | ok vs => rw [hv, hvs] at h; cases h

/-- A batch is evaluated like its positions one by one. -/
theorem evaluateBatch_eq_mapM (top : Nat) (inputs : List (String × Planes)) :
    evaluateBatch top inputs = inputs.mapM (reportOn top) := by
  unfold evaluateBatch Batch.reports
  cases h : (inputs.map (·.2)).mapM Planes.value with
  | error fault =>
      rw [BatchAction.bind_of_error (Batch.forM_add_of_error h .empty),
        mapM_reportOn_of_error top h]
  | ok values =>
      rw [BatchAction.value_bind, Batch.value_forM_add (mapM_eq_ok_iff.mp h) .empty,
        ← mapM_report [] h]
      exact congrArg Prod.fst (BatchAction.value_ofExcept _ _)

theorem evaluateAll_eq_ok_iff (pool : Pool) (threads batchSize : Nat) {top : Nat}
    {inputs : List (String × Planes)} {rs : List Report} :
    evaluateAll pool threads batchSize top inputs = .ok rs ↔
      inputs.mapM (reportOn top) = .ok rs := by
  have hbatch : evaluateBatch top = fun batch => batch.mapM (reportOn top) :=
    funext (evaluateBatch_eq_mapM top)
  rw [evaluateAll, hbatch, map_eq_ok_iff]
  simp only [pool.collect_eq_ok_iff]
  rw [← map_eq_ok_iff, mapM_mapM_flatten, flatten_chunks]

/-! ## Reports -/

/-- The report on a position is the one that the position gets alone. It repeats the text, gives the
value of the planes and the moves that the policy prefers, and has zeros for the rest. -/
structure IsReport (top : Nat) (input : String × Planes) (r : Report) : Prop where
  alone : evaluateBatch top [input] = .ok [r]
  fen : r.fen = input.1
  value : input.2.value = .ok r.value
  draw : r.draw = 0
  movesLeft : r.movesLeft = 0
  topMoves : r.topMoves = topMoves logPolicy.get top

theorem isReport_of_reportOn {top : Nat} {input : String × Planes} {r : Report}
    (h : reportOn top input = .ok r) : IsReport top input r := by
  have halone : evaluateBatch top [input] = .ok [r] := by
    rw [evaluateBatch_eq_mapM, List.mapM_cons, h]
    rfl
  unfold reportOn at h
  cases hv : input.2.value with
  | error fault => rw [hv] at h; cases h
  | ok v =>
      obtain rfl : Report.ofValue top input.1 v = r := by
        rw [hv] at h
        exact Except.ok.inj h
      exact ⟨halone, rfl, hv, rfl, rfl, rfl⟩

theorem reportOn_eq {input : String × Planes} (h : Planes.pieceCount ≤ input.2.length)
    (top : Nat) :
    reportOn top input = .ok (.ofValue top input.1 (squash input.2.men.score)) := by
  rw [reportOn, Planes.value_eq h]
  rfl

/-- Where all positions have enough planes, there are reports on them, and no size of the batches and
no pool of threads makes any others. -/
theorem exists_reports {inputs : List (String × Planes)}
    (h : ∀ input ∈ inputs, Planes.pieceCount ≤ input.2.length) (top : Nat) :
    ∃ rs, List.Forall₂ (IsReport top) inputs rs ∧
      ∀ pool threads batchSize, evaluateAll pool threads batchSize top inputs = .ok rs := by
  obtain ⟨rs, hrs⟩ : ∃ rs, inputs.mapM (reportOn top) = .ok rs :=
    exists_mapM_eq_ok_iff.mpr fun input hinput => ⟨_, reportOn_eq (h input hinput) top⟩
  refine ⟨rs, ?_, fun pool threads batchSize =>
    (evaluateAll_eq_ok_iff pool threads batchSize).mpr hrs⟩
  exact (mapM_eq_ok_iff.mp hrs).imp fun _ _ => isReport_of_reportOn

/-! ## The reports of a run -/

section Runs

open CommandLine (Arguments prepare reports runArguments)

theorem pieceCount_le_of_encodeText {fen : String} {format : InputFormat} {ps : Planes}
    (h : encodeText fen format = .ok ps) : Planes.pieceCount ≤ ps.length := by
  obtain ⟨b, layout, -, -, rfl⟩ := encodeText_eq_ok_iff.mp h
  rw [b.length_planes]
  decide

/-- Positions that have been prepared have enough planes, so that nothing can fail any more. -/
theorem pieceCount_le_of_prepare {files : Files} {a : Arguments} {inputs : List (String × Planes)}
    (h : prepare files a = .ok inputs) : ∀ input ∈ inputs, Planes.pieceCount ≤ input.2.length := by
  obtain ⟨evaluator, fens, -, -, -, hinputs⟩ := CommandLine.prepare_eq_ok_iff.mp h
  exact ((List.forall₂_and_left inputs fens).mp
    (hinputs.flip.imp fun _ _ h => ⟨pieceCount_le_of_encodeText h.2, h⟩)).1

theorem reports_of_prepare {files : Files} {a : Arguments} {inputs : List (String × Planes)}
    {rs : List Report} (hprepare : prepare files a = .ok inputs)
    (hrs : ∀ pool threads batchSize, evaluateAll pool threads batchSize a.topPolicy inputs = .ok rs)
    (pool : Pool) : reports pool files a = .ok rs := by
  unfold reports
  rw [hprepare, ok_bind, hrs]
  rfl

theorem reports_of_prepare_error {files : Files} {a : Arguments} {fault : CommandLine.RunFault}
    (hprepare : prepare files a = .error fault) (pool : Pool) :
    reports pool files a = .error fault := by
  unfold reports
  rw [hprepare]
  rfl

/-- What a run reports depends neither on the pool nor on the numbers of threads and positions in a
batch. -/
theorem reports_congr (pool pool' : Pool) (files : Files) (a : Arguments)
    (batchSize threads : Nat) :
    reports pool files { a with batchSize := batchSize, threads := threads } =
      reports pool' files a := by
  -- Neither number is looked at before everything has been prepared.
  have hsame : prepare files { a with batchSize := batchSize, threads := threads } =
      prepare files a := rfl
  cases hprepare : prepare files a with
  | error fault =>
      rw [reports_of_prepare_error hprepare, reports_of_prepare_error (hsame.trans hprepare)]
  | ok inputs =>
      obtain ⟨rs, -, hrs⟩ := exists_reports (pieceCount_le_of_prepare hprepare) a.topPolicy
      rw [reports_of_prepare hprepare hrs, reports_of_prepare (hsame.trans hprepare) hrs]

end Runs

/-- Positions of at least twelve planes have one report each, in their order, and neither the size of
the batches nor the threads that work on them can be seen in the reports. A program that has prepared
these positions makes these reports, and whatever positions it has, it leaves the same behind for
every pool, every size of the batches and every number of threads. -/
theorem evaluateAll_isReport {inputs : List (String × Planes)}
    (h : ∀ input ∈ inputs, Planes.pieceCount ≤ input.2.length) (top : Nat) :
    ∃ rs, List.Forall₂ (IsReport top) inputs rs ∧
      (∀ pool threads batchSize, Chunked batchSize inputs (chunks batchSize inputs) ∧
        evaluateAll pool threads batchSize top inputs = .ok rs) ∧
      ∀ (pool pool' : Pool) files (a : CommandLine.Arguments) batchSize threads,
        (CommandLine.prepare files a = .ok inputs → a.topPolicy = top →
          CommandLine.reports pool files { a with batchSize := batchSize, threads := threads } =
            .ok rs) ∧
        CommandLine.runArguments pool files { a with batchSize := batchSize, threads := threads } =
          CommandLine.runArguments pool' files a := by
  obtain ⟨rs, hall, hrs⟩ := exists_reports h top
  refine ⟨rs, hall, fun pool threads batchSize => ⟨chunked_chunks batchSize inputs, ?_⟩, ?_⟩
  · exact hrs pool threads batchSize
  · intro pool pool' files a batchSize threads
    constructor
    · rintro hprepare rfl
      rw [reports_congr pool pool, reports_of_prepare hprepare hrs]
    · simp only [CommandLine.runArguments, reports_congr pool pool']
      rfl

/-- A directory without files. -/
def noFiles : Files := fun _ => .error .notFound

/-- The arguments that ask for five moves on each of three positions. -/
def endgames : CommandLine.Arguments :=
  { CommandLine.Arguments.standard with
    fens := ["4k3/8/8/8/8/8/4P3/4K3 w - - 0 1", "4k3/8/8/8/8/8/8/4K3 b - - 3 9",
      "4k3/3q4/8/8/8/8/8/4K3 w - - 12 40"]
    topPolicy := 5 }

/-- The three positions in batches of two, which leave one over, and in batches of one. -/
theorem evaluateAll_isReport_endgames :
    ∃ inputs, CommandLine.prepare noFiles endgames = .ok inputs ∧ inputs.length = 3 ∧
      (∀ input ∈ inputs, Planes.pieceCount ≤ input.2.length) ∧
      ∃ rs, List.Forall₂ (IsReport 5) inputs rs ∧
        evaluateAll .single 3 2 5 inputs = .ok rs ∧ evaluateAll .single 0 0 5 inputs = .ok rs ∧
        CommandLine.reports .single noFiles { endgames with batchSize := 2, threads := 3 } =
          .ok rs := by
  have hready : (CommandLine.prepare noFiles endgames).toOption.any (fun inputs =>
      inputs.length == 3 && inputs.all fun input =>
        decide (Planes.pieceCount ≤ input.2.length)) = true := by decide +kernel
  cases hprep : CommandLine.prepare noFiles endgames with
  | error fault => rw [hprep] at hready; cases hready
  | ok inputs =>
      rw [hprep] at hready
      obtain ⟨hthree, hall⟩ : inputs.length = 3 ∧
          ∀ input ∈ inputs, Planes.pieceCount ≤ input.2.length := by
        simpa [Except.toOption] using hready
      obtain ⟨rs, hrs, hbatch, hrun⟩ := evaluateAll_isReport hall 5
      exact ⟨inputs, rfl, hthree, hall, rs, hrs, (hbatch .single 3 2).2, (hbatch .single 0 0).2,
        (hrun .single .single noFiles endgames 2 3).1 hprep rfl⟩

end PieceSquare
