import PieceSquare.CommandLine.Run
import PieceSquare.Proofs.Encoding.Consistent

set_option autoImplicit false

/-! # The stages of a run

Before anything is evaluated, a run goes through its stages, and either every stage succeeds
(`Succeeds`) or there is a first one that fails. `FirstFault` says of each stage what its fault is, and
that the stages before it have succeeded. The last stage looks at the positions one after another,
and within it the first bad position counts, which may be unreadable or, if it can be read, may be of
no use to the evaluator.
-/

namespace PieceSquare.CommandLine

/-! ## What the stages need -/

/-- The weights of a run: none unless a file is named, and then what is found there. -/
inductive WeightsRead (files : Files) (a : Arguments) : Option WeightsFile → Prop
  | unnamed (h : a.weights = none) : WeightsRead files a none
  | file (path : String) (data : ByteArray) (h : a.weights = some path)
      (hdata : files path = .ok data) : WeightsRead files a (some ⟨path, data⟩)

/-- The positions in the file of a run, if one is named. -/
inductive Listed (files : Files) (a : Arguments) : List String → Prop
  | unnamed (h : a.positions = none) : Listed files a []
  | file (path : String) (fens : List String) (h : a.positions = some path)
      (hfens : readPositions files path = .ok fens) : Listed files a fens

/-- The evaluator that a run asks for: that of a backend with a name, or the default one. -/
def evaluatorFor (a : Arguments) (weights : Option WeightsFile) (options : Options) :
    Except BackendFault Evaluator :=
  match a.backend with
  | some name => (Registry.builtin.create name weights options).run.value
  | none => (Registry.builtin.createDefault weights options).run.value

/-- The options and the weights of a run are read, and its evaluator is made of them. -/
def Makes (files : Files) (a : Arguments) (evaluator : Evaluator) : Prop :=
  ∃ options weights, Options.parse a.options = .ok options ∧ WeightsRead files a weights ∧
    evaluatorFor a weights options = .ok evaluator

/-- The positions of a run: those given one by one, then those in the file, then the random ones. -/
def Collects (files : Files) (a : Arguments) (fens : List String) : Prop :=
  ∃ listed, Listed files a listed ∧ fens = a.fens ++ listed ++ randomPositions a

/-- What is wrong with a position. That it cannot be read comes before what an evaluator of some
format can make of it. -/
inductive BadPosition (format : InputFormat) (fen : String) : RunFault → Prop
  | unreadable (reason : FenFault) (h : Fen.read (trim fen.toList) = .error reason) :
      BadPosition format fen (.position (.invalidFen fen reason))
  | unsupported (b : Board) (hb : Board.ofText fen = .ok b) (h : format ∉ supportedFormats) :
      BadPosition format fen (.encoding format (.unsupportedFormat format))

/-- The fault of the first stage of a run that fails. -/
inductive FirstFault (files : Files) (a : Arguments) : RunFault → Prop
  | options (fault : OptionsFault) (h : Options.parse a.options = .error fault) :
      FirstFault files a (.backend (.malformedOptions fault))
  | weights (options : Options) (path : String) (fault : FileFault)
      (hoptions : Options.parse a.options = .ok options) (hpath : a.weights = some path)
      (h : files path = .error fault) : FirstFault files a (.weights ⟨path, fault⟩)
  | evaluator (options : Options) (weights : Option WeightsFile) (fault : BackendFault)
      (hoptions : Options.parse a.options = .ok options) (hweights : WeightsRead files a weights)
      (h : evaluatorFor a weights options = .error fault) : FirstFault files a (.backend fault)
  | positions (evaluator : Evaluator) (path : String) (fault : PositionsFault)
      (hevaluator : Makes files a evaluator) (hpath : a.positions = some path)
      (h : readPositions files path = .error fault) : FirstFault files a (.positions fault)
  | noPositions (evaluator : Evaluator) (hevaluator : Makes files a evaluator)
      (h : Collects files a []) : FirstFault files a .noPositions
  | position (evaluator : Evaluator) (before : List String) (fen : String) (after : List String)
      (fault : RunFault) (hevaluator : Makes files a evaluator)
      (hfens : Collects files a (before ++ fen :: after))
      (hbefore : ∀ good ∈ before, ∃ ps, encodeText good evaluator.capabilities.input = .ok ps)
      (h : BadPosition evaluator.capabilities.input fen fault) : FirstFault files a fault

/-- Every stage of a run succeeds. -/
def Succeeds (files : Files) (a : Arguments) : Prop :=
  ∃ evaluator fens, Makes files a evaluator ∧ Collects files a fens ∧ fens ≠ [] ∧
    ∀ fen ∈ fens, ∃ ps, encodeText fen evaluator.capabilities.input = .ok ps

/-! ## Stage by stage -/

variable {files : Files} {a : Arguments}

theorem loadWeights_of_some {path : String} (h : a.weights = some path) :
    loadWeights files a =
      ((files path).map fun data => some ⟨path, data⟩).mapError fun fault =>
        .weights ⟨path, fault⟩ := by
  rw [loadWeights, h]
  show ((WeightsFile.load files path).run.value.mapError RunFault.weights).map some = _
  unfold WeightsFile.load
  cases files path <;> rfl

theorem loadWeights_of_none (h : a.weights = none) : loadWeights files a = .ok none := by
  rw [loadWeights, h]

theorem loadWeights_eq_ok_iff {weights : Option WeightsFile} :
    loadWeights files a = .ok weights ↔ WeightsRead files a weights := by
  constructor
  · intro h
    cases hpath : a.weights with
    | none =>
        rw [loadWeights_of_none hpath] at h
        cases h
        exact .unnamed hpath
    | some path =>
        rw [loadWeights_of_some hpath, mapError_eq_ok_iff] at h
        cases hdata : files path with
        | error fault =>
            rw [hdata] at h
            cases h
        | ok data =>
            rw [hdata] at h
            cases h
            exact .file path data hpath hdata
  · intro h
    cases h with
    | unnamed h => exact loadWeights_of_none h
    | file path data h hdata =>
        rw [loadWeights_of_some h, hdata]
        rfl

theorem loadWeights_eq_error_iff {fault : RunFault} :
    loadWeights files a = .error fault ↔ ∃ path cause, a.weights = some path ∧
      files path = .error cause ∧ fault = .weights ⟨path, cause⟩ := by
  constructor
  · intro h
    cases hpath : a.weights with
    | none =>
        rw [loadWeights_of_none hpath] at h
        cases h
    | some path =>
        rw [loadWeights_of_some hpath, mapError_eq_error_iff] at h
        obtain ⟨cause, hcause, rfl⟩ := h
        cases hdata : files path with
        | ok data =>
            rw [hdata] at hcause
            cases hcause
        | error cause' =>
            rw [hdata] at hcause
            cases hcause
            exact ⟨path, cause, rfl, hdata, rfl⟩
  · rintro ⟨path, cause, hpath, hcause, rfl⟩
    rw [loadWeights_of_some hpath, hcause]
    rfl

theorem makeEvaluator_eq (files : Files) (a : Arguments) :
    makeEvaluator files a =
      ((Options.parse a.options).mapError fun fault => .backend (.malformedOptions fault)) >>=
        fun options => loadWeights files a >>= fun weights =>
          (evaluatorFor a weights options).mapError .backend := by
  unfold makeEvaluator evaluatorFor
  cases a.backend <;> rfl

theorem makeEvaluator_eq_ok_iff {evaluator : Evaluator} :
    makeEvaluator files a = .ok evaluator ↔ Makes files a evaluator := by
  simp only [makeEvaluator_eq, bind_eq_ok_iff, mapError_eq_ok_iff, loadWeights_eq_ok_iff, Makes,
    exists_and_left]

/-- An evaluator is not made because of the options, the weights or the backend, in this order. -/
theorem makeEvaluator_eq_error_iff {fault : RunFault} :
    makeEvaluator files a = .error fault ↔
      (∃ cause, Options.parse a.options = .error cause ∧
        fault = .backend (.malformedOptions cause)) ∨
      ∃ options, Options.parse a.options = .ok options ∧
        ((∃ path cause, a.weights = some path ∧ files path = .error cause ∧
          fault = .weights ⟨path, cause⟩) ∨
        ∃ weights, WeightsRead files a weights ∧
          ∃ cause, evaluatorFor a weights options = .error cause ∧ fault = .backend cause) := by
  simp only [makeEvaluator_eq, bind_eq_error_iff, mapError_eq_error_iff, mapError_eq_ok_iff,
    loadWeights_eq_error_iff, loadWeights_eq_ok_iff]

theorem filePositions_eq_ok_iff {fens : List String} :
    filePositions files a = .ok fens ↔ Listed files a fens := by
  unfold filePositions
  constructor
  · intro h
    cases hpath : a.positions with
    | none =>
        rw [hpath] at h
        cases h
        exact .unnamed hpath
    | some path =>
        rw [hpath] at h
        exact .file path fens hpath (mapError_eq_ok_iff.mp h)
  · intro h
    cases h with
    | unnamed h => rw [h]
    | file path _ h hfens =>
        rw [h]
        exact mapError_eq_ok_iff.mpr hfens

theorem filePositions_eq_error_iff {fault : RunFault} :
    filePositions files a = .error fault ↔ ∃ path cause, a.positions = some path ∧
      readPositions files path = .error cause ∧ fault = .positions cause := by
  unfold filePositions
  cases a.positions with
  | none => simp
  | some path => simp [mapError_eq_error_iff]

theorem collectPositions_eq_ok_iff {fens : List String} :
    collectPositions files a = .ok fens ↔ Collects files a fens := by
  unfold collectPositions Collects
  rw [bind_eq_ok_iff]
  refine exists_congr fun listed => and_congr filePositions_eq_ok_iff ?_
  constructor
  · intro h
    exact (Except.ok.inj h).symm
  · rintro rfl
    rfl

theorem collectPositions_eq_error_iff {fault : RunFault} :
    collectPositions files a = .error fault ↔ ∃ path cause, a.positions = some path ∧
      readPositions files path = .error cause ∧ fault = .positions cause := by
  unfold collectPositions
  rw [bind_eq_error_iff, filePositions_eq_error_iff]
  constructor
  · rintro (h | ⟨listed, -, h⟩)
    · exact h
    · cases h
  · exact .inl

theorem encodePosition_eq_ok_iff {format : InputFormat} {fen : String} {input : String × Planes} :
    encodePosition format fen = .ok input ↔
      input.1 = fen ∧ encodeText fen format = .ok input.2 := by
  unfold encodePosition encodeText
  simp only [bind_eq_ok_iff, mapError_eq_ok_iff]
  constructor
  · rintro ⟨b, hb, ps, hps, h⟩
    cases h
    exact ⟨rfl, b, hb, hps⟩
  · rintro ⟨rfl, b, hb, hps⟩
    exact ⟨b, hb, input.2, hps, rfl⟩

/-- The fault of a text that is no board names the text. -/
theorem ofText_eq_error_iff {fen : String} {fault : EncodeFault} :
    Board.ofText fen = .error fault ↔
      ∃ reason, Fen.read (trim fen.toList) = .error reason ∧ fault = .invalidFen fen reason :=
  mapError_eq_error_iff

theorem encodePosition_eq_error_iff {format : InputFormat} {fen : String} {fault : RunFault} :
    encodePosition format fen = .error fault ↔ BadPosition format fen fault := by
  unfold encodePosition
  simp only [bind_eq_error_iff, mapError_eq_error_iff, mapError_eq_ok_iff]
  constructor
  · rintro (⟨cause, h, rfl⟩ | ⟨b, hb, ⟨cause, h, rfl⟩ | ⟨ps, -, h⟩⟩)
    · obtain ⟨reason, hread, rfl⟩ := ofText_eq_error_iff.mp h
      exact .unreadable reason hread
    · obtain ⟨hformat, rfl⟩ := encode_eq_error_iff.mp h
      exact .unsupported b hb hformat
    · cases h
  · intro h
    cases h with
    | unreadable reason h => exact .inl ⟨_, ofText_eq_error_iff.mpr ⟨reason, h, rfl⟩, rfl⟩
    | unsupported b hb h => exact .inr ⟨b, hb, .inl ⟨_, encode_eq_error_iff.mpr ⟨h, rfl⟩, rfl⟩⟩

theorem exists_encodePosition_iff {format : InputFormat} {fen : String} :
    (∃ input, encodePosition format fen = .ok input) ↔
      ∃ ps, encodeText fen format = .ok ps := by
  constructor
  · rintro ⟨input, h⟩
    exact ⟨input.2, (encodePosition_eq_ok_iff.mp h).2⟩
  · rintro ⟨ps, h⟩
    exact ⟨(fen, ps), encodePosition_eq_ok_iff.mpr ⟨rfl, h⟩⟩

/-! ## All stages -/

theorem prepare_eq (files : Files) (a : Arguments) :
    prepare files a = makeEvaluator files a >>= fun evaluator => collectPositions files a >>=
      fun fens => if fens = [] then .error .noPositions
        else fens.mapM (encodePosition evaluator.capabilities.input) := by
  unfold prepare
  simp only [List.isEmpty_iff]
  rfl

theorem prepare_eq_ok_iff {inputs : List (String × Planes)} :
    prepare files a = .ok inputs ↔ ∃ evaluator fens, Makes files a evaluator ∧
      Collects files a fens ∧ fens ≠ [] ∧ List.Forall₂ (fun fen input =>
        input.1 = fen ∧ encodeText fen evaluator.capabilities.input = .ok input.2) fens inputs := by
  rw [prepare_eq, bind_eq_ok_iff]
  simp only [bind_eq_ok_iff, makeEvaluator_eq_ok_iff, collectPositions_eq_ok_iff]
  constructor
  · rintro ⟨evaluator, hevaluator, fens, hfens, h⟩
    split at h
    · cases h
    · next hne =>
        simp only [mapM_eq_ok_iff, encodePosition_eq_ok_iff] at h
        exact ⟨evaluator, fens, hevaluator, hfens, hne, h⟩
  · rintro ⟨evaluator, fens, hevaluator, hfens, hne, h⟩
    refine ⟨evaluator, hevaluator, fens, hfens, ?_⟩
    rw [if_neg hne, mapM_eq_ok_iff]
    simpa only [encodePosition_eq_ok_iff] using h

theorem exists_prepare_iff : (∃ inputs, prepare files a = .ok inputs) ↔ Succeeds files a := by
  rw [prepare_eq]
  simp only [bind_eq_ok_iff, makeEvaluator_eq_ok_iff, collectPositions_eq_ok_iff]
  constructor
  · rintro ⟨inputs, evaluator, hevaluator, fens, hfens, h⟩
    split at h
    · cases h
    · next hne =>
        exact ⟨evaluator, fens, hevaluator, hfens, hne, fun fen hfen =>
          exists_encodePosition_iff.mp (exists_mapM_eq_ok_iff.mp ⟨inputs, h⟩ fen hfen)⟩
  · rintro ⟨evaluator, fens, hevaluator, hfens, hne, h⟩
    obtain ⟨inputs, hinputs⟩ := exists_mapM_eq_ok_iff.mpr fun fen hfen =>
      exists_encodePosition_iff.mpr (h fen hfen)
    refine ⟨inputs, evaluator, hevaluator, fens, hfens, ?_⟩
    rw [if_neg hne, hinputs]

theorem prepare_eq_error_iff {fault : RunFault} :
    prepare files a = .error fault ↔ FirstFault files a fault := by
  rw [prepare_eq]
  simp only [bind_eq_error_iff, makeEvaluator_eq_ok_iff, collectPositions_eq_ok_iff]
  constructor
  · -- Whichever step is the first to fail, the steps in front of it have left what they found.
    rintro (h | ⟨evaluator, hevaluator, h | ⟨fens, hfens, h⟩⟩)
    · rcases makeEvaluator_eq_error_iff.mp h with ⟨cause, hcause, rfl⟩ | ⟨options, hoptions, h⟩
      · exact .options cause hcause
      · rcases h with ⟨path, cause, hpath, hcause, rfl⟩ | ⟨weights, hweights, cause, hcause, rfl⟩
        · exact .weights options path cause hoptions hpath hcause
        · exact .evaluator options weights cause hoptions hweights hcause
    · obtain ⟨path, cause, hpath, hcause, rfl⟩ := collectPositions_eq_error_iff.mp h
      exact .positions evaluator path cause hevaluator hpath hcause
    · split at h
      · next hnil =>
          cases h
          exact .noPositions evaluator hevaluator (hnil ▸ hfens)
      · obtain ⟨before, fen, after, rfl, hbefore, h⟩ := mapM_eq_error_iff.mp h
        exact .position evaluator before fen after fault hevaluator hfens
          (fun good hgood => exists_encodePosition_iff.mp (hbefore good hgood))
          (encodePosition_eq_error_iff.mp h)
  · intro h
    cases h with
    | options cause h =>
        exact .inl (makeEvaluator_eq_error_iff.mpr (.inl ⟨cause, h, rfl⟩))
    | weights options path cause hoptions hpath h =>
        exact .inl (makeEvaluator_eq_error_iff.mpr
          (.inr ⟨options, hoptions, .inl ⟨path, cause, hpath, h, rfl⟩⟩))
    | evaluator options weights cause hoptions hweights h =>
        exact .inl (makeEvaluator_eq_error_iff.mpr
          (.inr ⟨options, hoptions, .inr ⟨weights, hweights, cause, h, rfl⟩⟩))
    | positions evaluator path cause hevaluator hpath h =>
        exact .inr ⟨evaluator, hevaluator,
          .inl (collectPositions_eq_error_iff.mpr ⟨path, cause, hpath, h, rfl⟩)⟩
    | noPositions evaluator hevaluator h =>
        exact .inr ⟨evaluator, hevaluator, .inr ⟨[], h, rfl⟩⟩
    | position evaluator before fen after fault hevaluator hfens hbefore h =>
        refine .inr ⟨evaluator, hevaluator, .inr ⟨_, hfens, ?_⟩⟩
        rw [if_neg (by simp)]
        exact mapM_eq_error_iff.mpr ⟨before, fen, after, rfl,
          fun good hgood => exists_encodePosition_iff.mpr (hbefore good hgood),
          encodePosition_eq_error_iff.mpr h⟩

theorem FirstFault.unique {fault fault' : RunFault} (h : FirstFault files a fault)
    (h' : FirstFault files a fault') : fault = fault' := by
  have hprepare := prepare_eq_error_iff.mpr h
  rw [prepare_eq_error_iff.mpr h'] at hprepare
  exact (Except.error.inj hprepare).symm

theorem not_succeeds_iff : ¬Succeeds files a ↔ ∃ fault, FirstFault files a fault := by
  simp only [← exists_prepare_iff, ← prepare_eq_error_iff]
  cases prepare files a with
  | ok inputs => simp
  | error fault => simp

end PieceSquare.CommandLine
