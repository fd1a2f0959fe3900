import PieceSquare.Proofs.CommandLine.Records
import PieceSquare.Proofs.CommandLine.Stages
import PieceSquare.Proofs.Evaluator.Reports
import PieceSquare.Proofs.Evaluator.TopMoves

set_option autoImplicit false

/-! # Reports or the first fault

A run of the program ends in one of two ways. Either every stage succeeds, and there is a record for
each position, in order; or some stage fails, and there is nothing but the fault of the first one
that does, told on the error output in the words of its stage (`Tells`).
-/

namespace PieceSquare.CommandLine

variable {files : Files} {a : Arguments} {pool : Pool}

/-! ## Records -/

/-- There is a report on each position, in the order of the positions. -/
def Reported (format : InputFormat) (top : Nat) (fens : List String) (rs : List Report) : Prop :=
  List.Forall₂ (fun fen r => ∃ ps, encodeText fen format = .ok ps ∧ IsReport top (fen, ps) r)
    fens rs

theorem reported_of_isReport {format : InputFormat} {top : Nat} {fens : List String}
    {inputs : List (String × Planes)} {rs : List Report}
    (hinputs : List.Forall₂ (fun fen input =>
      input.1 = fen ∧ encodeText fen format = .ok input.2) fens inputs)
    (hrs : List.Forall₂ (IsReport top) inputs rs) : Reported format top fens rs := by
  induction hinputs generalizing rs with
  | nil =>
      cases hrs
      exact .nil
  | @cons fen input fens inputs hinput _ ih =>
      obtain ⟨rfl, hencode⟩ := hinput
      cases hrs with
      | cons hr hrs => exact .cons ⟨input.2, hencode, hr⟩ (ih hrs)

/-- The reports repeat the positions. -/
theorem Reported.map_fen {format : InputFormat} {top : Nat} {fens : List String} {rs : List Report}
    (h : Reported format top fens rs) : rs.map (·.fen) = fens := by
  induction h with
  | nil => rfl
  | cons hr _ ih =>
      obtain ⟨ps, -, hreport⟩ := hr
      rw [List.map_cons, ih, hreport.fen]

theorem Reported.topMoves_eq {format : InputFormat} {top : Nat} {fens : List String}
    {rs : List Report} (h : Reported format top fens rs) :
    ∀ r ∈ rs, r.topMoves = topMoves logPolicy.get top := by
  induction h with
  | nil => simp
  | cons hr _ ih =>
      obtain ⟨ps, -, hreport⟩ := hr
      exact List.forall_mem_cons.mpr ⟨hreport.topMoves, ih⟩

theorem runArguments_of_succeeds (hlist : a.listBackends = false) (h : Succeeds files a) :
    ∃ evaluator fens rs, Makes files a evaluator ∧ Collects files a fens ∧
      Reported evaluator.capabilities.input a.topPolicy fens rs ∧
      runArguments pool files a = ⟨0, rs.flatMap (reportLines a), []⟩ := by
  obtain ⟨inputs, hprepare⟩ := exists_prepare_iff.mpr h
  obtain ⟨evaluator, fens, hevaluator, hfens, -, hinputs⟩ := prepare_eq_ok_iff.mp hprepare
  obtain ⟨rs, hall, hrs⟩ := exists_reports (pieceCount_le_of_prepare hprepare) a.topPolicy
  refine ⟨evaluator, fens, rs, hevaluator, hfens, reported_of_isReport hinputs hall, ?_⟩
  simp [runArguments, hlist, reports_of_prepare hprepare hrs]

/-! ## Faults -/

/-- What the lines on a fault say: which stage has failed and why, with the texts and names that it has
been given. -/
inductive Tells : RunFault → List String → Prop where
  | options (fault : OptionsFault) : Tells (.backend (.malformedOptions fault))
      ["Error: malformed backend options '" ++ fault.message ++ "'"]
  | unknownBackend (name : String) : Tells (.backend (.unknownBackend name))
      ["Error: unknown backend: " ++ name]
  | noBackends : Tells (.backend .noBackends) ["Error: no backends registered"]
  | format (expected actual : InputFormat) : Tells (.backend (.incompatibleFormat expected actual))
      ["Error: backend expects input format " ++ expected.text ++ ", got " ++ actual.text]
  | option (name : String) (reason : Mismatch) : Tells (.backend (.invalidOption ⟨name, reason⟩))
      ["Error: invalid value for option '" ++ name ++ "': " ++ reason.message]
  | weights (path : String) (cause : FileFault) : Tells (.weights ⟨path, cause⟩)
      ["Error: read weights file: " ++ path, "", "Caused by:", "    " ++ cause.message]
  | opening (path : String) (cause : FileFault) : Tells (.positions (.opening path cause))
      ["Error: open positions file: " ++ path, "", "Caused by:", "    " ++ cause.message]
  | reading (path : String) (line : Nat) (cause : FileFault) :
      Tells (.positions (.reading path line cause))
        ["Error: read " ++ path ++ " line " ++ toString line, "", "Caused by:",
          "    " ++ cause.message]
  | noPositions : Tells .noPositions
      ["Error: no positions given; use --fen, --positions or --random"]
  | position (fen : String) (reason : FenFault) : Tells (.position (.invalidFen fen reason))
      ["Error: invalid FEN '" ++ fen ++ "': " ++ reason.name]
  | encoding (format : InputFormat) : Tells (.encoding format (.unsupportedFormat format))
      ["Error: encode position for backend input format " ++ format.text, "", "Caused by:",
        "    input format " ++ format.text ++ " is not supported by the encoder"]

theorem tells_backend (fault : BackendFault) :
    Tells (.backend fault) (RunFault.backend fault).lines := by
  cases fault with
  | unknownBackend name => exact .unknownBackend name
  | noBackends => exact .noBackends
  | incompatibleFormat expected actual => exact .format expected actual
  | invalidOption fault => exact .option fault.name fault.reason
  | malformedOptions fault => exact .options fault

/-- The lines on the first fault tell of it. -/
theorem FirstFault.tells {fault : RunFault} (h : FirstFault files a fault) :
    Tells fault fault.lines := by
  cases h with
  | options cause => exact tells_backend _
  | weights options path cause => exact .weights path cause
  | evaluator options weights cause => exact tells_backend cause
  | positions evaluator path cause =>
      cases cause with
      | opening path cause => exact .opening path cause
      | reading path line cause => exact .reading path line cause
  | noPositions => exact .noPositions
  | position evaluator before fen after fault hevaluator hfens hbefore h =>
      cases h with
      | unreadable reason => exact .position fen reason
      | unsupported => exact .encoding _

theorem runArguments_of_firstFault {fault : RunFault} (hlist : a.listBackends = false)
    (h : FirstFault files a fault) : runArguments pool files a = ⟨1, [], fault.lines⟩ := by
  simp [runArguments, hlist, reports_of_prepare_error (prepare_eq_error_iff.mpr h)]

/-- Where the first position is bad, nothing else is looked at. -/
theorem firstFault_of_head {evaluator : Evaluator} {fen : String} {rest : List String}
    {fault : RunFault} (hevaluator : Makes files a evaluator)
    (hfens : Collects files a (fen :: rest))
    (h : BadPosition evaluator.capabilities.input fen fault) : FirstFault files a fault :=
  .position evaluator [] fen rest fault hevaluator hfens (by simp) h

/-! ## Both endings -/

theorem Collects.unique {fens fens' : List String} (h : Collects files a fens)
    (h' : Collects files a fens') : fens = fens' := by
  have hcollect := collectPositions_eq_ok_iff.mpr h
  rw [collectPositions_eq_ok_iff.mpr h'] at hcollect
  exact (Except.ok.inj hcollect).symm

theorem exists_two_records {json : Bool} {fen fen' : String} {rs : List Report}
    {records : List (List String)} (hnames : rs.map (·.fen) = [fen, fen'])
    (hrecords : List.Forall₂ (IsRecord json) rs records) :
    ∃ r r' record record', rs = [r, r'] ∧ records = [record, record'] ∧ r.fen = fen ∧
      r'.fen = fen' ∧ IsRecord json r record ∧ IsRecord json r' record' := by
  obtain ⟨r, _, rfl, hr, hsecond⟩ := List.map_eq_cons_iff.mp hnames
  obtain ⟨r', _, rfl, hr', hend⟩ := List.map_eq_cons_iff.mp hsecond
  obtain rfl := List.map_eq_nil_iff.mp hend
  obtain ⟨record, _, hrecord, hsecond', rfl⟩ := List.forall₂_cons_left_iff.mp hrecords
  obtain ⟨record', _, hrecord', hend', rfl⟩ := List.forall₂_cons_left_iff.mp hsecond'
  obtain rfl := List.forall₂_nil_left_iff.mp hend'
  exact ⟨r, r', record, record', rfl, rfl, hr, hr', hrecord, hrecord'⟩

/-- A record with one top move has two lines. -/
theorem exists_two_lines {r : Report} {lines : List String}
    (htop : r.topMoves = topMoves logPolicy.get 1) (h : IsRecord false r lines) :
    ∃ head move, lines = [head, move] := by
  obtain ⟨head, moves, rfl, hlength⟩ := h.exists_head
  rw [htop, length_topMoves] at hlength
  obtain ⟨move, rfl⟩ := List.length_eq_one_iff.mp hlength
  exact ⟨head, move, rfl⟩

/-- A position in which White has a pawn more. -/
def pawnUp : String := "4k3/8/8/8/8/8/4P3/4K3 w - - 0 1"

/-- A position without any men but the kings. -/
def bareKings : String := "4k3/8/8/8/8/8/8/4K3 b - - 3 9"

/-- A position without kings. -/
def kingless : String := "8/8/8/8/8/8/4P3/8 w - - 0 1"

/-- The words that ask for two positions in some format and form, with one top move each. -/
def asked (format fen fen' : String) (json : Bool) : List String :=
  ["--backend-opts", format, "--fen", fen, "--fen", fen', "--top-policy", "1"] ++
    if json then ["--json"] else []

/-- What the words ask for. -/
def askedArguments (format fen fen' : String) (json : Bool) : Arguments :=
  { Arguments.standard with options := format, fens := [fen, fen'], topPolicy := 1, json := json }

end PieceSquare.CommandLine
