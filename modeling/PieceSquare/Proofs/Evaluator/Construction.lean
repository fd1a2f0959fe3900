import PieceSquare.Proofs.Evaluator.Batch
import PieceSquare.Proofs.Options.Items

set_option autoImplicit false

/-! # Evaluators made from options

Of all that is handed over when an evaluator is made, only the option for the input format counts. It
has to be an integer of 64 bits or to be absent (`Options.AsksFor`), and any other value is a fault
that names the option, and not a reason to take the default. So whatever integer of 64 bits is
written into a text of options comes back as the number of the format, and no two of them are
confused; and a longer one, which is not kept as an integer, is rejected.
-/

namespace PieceSquare

/-! ## Formats and their numbers -/

namespace InputFormat

/-- The number of a format survives, with a name and without. -/
theorem code_ofCode (n : Int64) : (ofCode n).code = n := by
  unfold ofCode
  cases h : named.find? (·.code == n) with
  | none => rfl
  | some f =>
      have hcode := List.find?_some h
      exact beq_iff_eq.mp hcode

theorem ofCode_injective : Function.Injective ofCode := fun m n h => by
  rw [← code_ofCode m, h, code_ofCode]

end InputFormat

theorem Capabilities.checkInput_eq_ok_iff {c : Capabilities} {f : InputFormat} :
    c.checkInput f = .ok () ↔ f = c.input := by
  unfold checkInput
  split_ifs with h
  · exact iff_of_true rfl h
  · exact iff_of_false (by rintro ⟨⟩) h

/-! ## The option -/

/-- Only an integer of 64 bits is read as one. -/
theorem Json.asInt64_eq_ok_iff {j : Json} {n : Int64} :
    j.asInt64 = .ok n ↔ j = .integer n.toInt := by
  have hlimit : (signedLimit : Int) = 2 ^ 63 := rfl
  cases j with
  | integer k =>
      simp only [asInt64, asIntegerIn]
      split_ifs with hrange
      · show Except.ok (Int64.ofInt k) = .ok n ↔ _
        rw [Except.ok.injEq, Json.integer.injEq]
        constructor
        · rintro rfl
          rw [Int64.toInt_ofInt_of_le (by omega) (by omega)]
        · rintro rfl
          exact Int64.ofInt_toInt n
      · refine iff_of_false (by rintro ⟨⟩) fun heq => hrange ?_
        have hlo := n.le_toInt
        have hhi := n.toInt_lt
        rw [Json.integer.inj heq]
        omega
  | _ => exact iff_of_false (by rintro ⟨⟩) (by rintro ⟨⟩)

/-- The number of the input format that options ask for: the integer of 64 bits that the option
holds, or 1 if the option is absent. -/
inductive Options.AsksFor (o : Options) (n : Int64) : Prop where
  | byDefault (habsent : o.members.get? "input_mode" = none) (hn : n = 1)
  | given (h : o.members.get? "input_mode" = some (.integer n.toInt))

/-- The evaluator of classical outcomes whose input format has a number. -/
def Evaluator.ofFormatCode (n : Int64) : Evaluator := ⟨⟨.ofCode n, .classical, .none⟩⟩

namespace Evaluator

theorem eq_ofFormatCode_iff {e : Evaluator} {n : Int64} :
    e = ofFormatCode n ↔ e.capabilities = ⟨.ofCode n, .classical, .none⟩ := by
  constructor
  · rintro rfl
    rfl
  · exact congrArg Evaluator.mk

theorem value_create (weights : Option WeightsFile) (o : Options) :
    (create weights o).run.value = ofOptions o := by
  cases weights <;> rw [create] <;> simp only [Logged.value_run_bind] <;> cases ofOptions o <;> rfl

theorem ofOptions_of_none {o : Options} (h : o.members.get? "input_mode" = none) :
    ofOptions o = .ok (ofFormatCode 1) := by
  have hget : o.get Json.asInt64 formatOption = .ok none := by
    unfold Options.get formatOption
    rw [h]
  rw [ofOptions, Options.getD, hget]
  rfl

theorem ofOptions_of_some {o : Options} {j : Json} (h : o.members.get? "input_mode" = some j) :
    ofOptions o = match j.asInt64 with
      | .ok n => .ok (ofFormatCode n)
      | .error reason => .error (.invalidOption ⟨"input_mode", reason⟩) := by
  have hget : o.get Json.asInt64 formatOption =
      (j.asInt64.map some).mapError fun reason => ⟨formatOption, reason⟩ := by
    unfold Options.get formatOption
    rw [h]
  rw [ofOptions, Options.getD, hget]
  cases j.asInt64 <;> rfl

theorem ofOptions_eq_ok_iff {o : Options} {e : Evaluator} :
    ofOptions o = .ok e ↔ ∃ n, o.AsksFor n ∧ e = ofFormatCode n := by
  cases h : o.members.get? "input_mode" with
  | none =>
      rw [ofOptions_of_none h]
      constructor
      · rintro ⟨⟩
        exact ⟨1, .byDefault h rfl, rfl⟩
      · rintro ⟨n, ⟨-, rfl⟩ | hgiven, rfl⟩
        · rfl
        · rw [h] at hgiven
          cases hgiven
  | some j =>
      have hasks (n : Int64) : o.AsksFor n ↔ j.asInt64 = .ok n := by
        rw [Json.asInt64_eq_ok_iff]
        constructor
        · rintro (⟨habsent, -⟩ | hgiven)
          · rw [h] at habsent
            cases habsent
          · exact Option.some.inj (h.symm.trans hgiven)
        · rintro rfl
          exact .given h
      simp only [hasks]
      rw [ofOptions_of_some h]
      cases j.asInt64 with
      | ok n =>
          constructor
          · rintro ⟨⟩
            exact ⟨n, rfl, rfl⟩
          · rintro ⟨_, ⟨⟩, rfl⟩
            rfl
      | error reason => exact iff_of_false (by rintro ⟨⟩) (by rintro ⟨_, ⟨⟩, -⟩)

/-- Options that ask for no format have the wrong value for it. -/
theorem ofOptions_eq_error {o : Options} (hasks : ∀ n, ¬ o.AsksFor n) :
    ∃ reason, ofOptions o = .error (.invalidOption ⟨"input_mode", reason⟩) := by
  cases h : o.members.get? "input_mode" with
  | none => exact absurd (.byDefault h rfl) (hasks 1)
  | some j =>
      rw [ofOptions_of_some h]
      cases hj : j.asInt64 with
      | ok n =>
          rw [Json.asInt64_eq_ok_iff.mp hj] at h
          exact absurd (.given h) (hasks n)
      | error reason => exact ⟨reason, rfl⟩

theorem ofOptions_congr {o o' : Options}
    (h : o.members.get? "input_mode" = o'.members.get? "input_mode") :
    ofOptions o = ofOptions o' := by
  cases ho : o.members.get? "input_mode" with
  | none => rw [ofOptions_of_none ho, ofOptions_of_none (h.symm.trans ho)]
  | some j => rw [ofOptions_of_some ho, ofOptions_of_some (h.symm.trans ho)]

/-! ## Options written as a text -/

/-- The text that asks for an input format by its number. -/
def formatText (n : Int) : String := "input_mode=" ++ toString n

theorem parse_formatText (n : Int) : Options.parse (formatText n) =
    .ok (.ofPairs [("input_mode", Options.inferValue (Json.writeInteger n))]) := by
  have htext : (formatText n).toList =
      ['i', 'n', 'p', 'u', 't', '_', 'm', 'o', 'd', 'e'] ++ '=' :: Json.writeInteger n := by
    rw [formatText, String.toList_append, toList_toString]
    rfl
  have hname : ∀ c ∈ ['i', 'n', 'p', 'u', 't', '_', 'm', 'o', 'd', 'e'],
      (c != ',' && !isBlank c) = true := List.all_eq_true.mp (by decide)
  simp only [Bool.and_eq_true, bne_iff_ne, Bool.not_eq_true'] at hname
  refine Options.parse_singleton htext (by decide) (by decide) (fun c hc => ?_) fun c hc => ?_
  · rcases List.mem_append.mp hc with hc | hc
    · exact (hname c hc).1
    · rintro rfl
      exact not_mem_writeInteger (by decide) (by decide) n hc
  · rcases List.mem_append.mp hc with hc | hc
    · exact (hname c hc).2
    · exact isBlank_of_mem_writeInteger hc

/-- The value under which a text keeps the number of a format. -/
theorem exists_parse_formatText (n : Int) :
    ∃ o, Options.parse (formatText n) = .ok o ∧ o.members.get? "input_mode" =
      some (Options.inferValue (Json.writeInteger n)) :=
  ⟨_, parse_formatText n, Options.get?_ofPairs_singleton ..⟩

/-- A number of 64 bits asks for its format. -/
theorem exists_asksFor_formatText (n : Int64) :
    ∃ o, Options.parse (formatText n.toInt) = .ok o ∧ o.AsksFor n := by
  obtain ⟨o, hparse, hget⟩ := exists_parse_formatText n.toInt
  rw [inferValue_toInt] at hget
  exact ⟨o, hparse, .given hget⟩

/-- What is left of a number that has more than 64 bits: a binary64 number, or its text where that
number would be infinite. -/
def KeptInexactly (n : Int) : Json → Prop
  | .float x => n.natAbs < Binary64.overflow ∧ readDouble? (toString n).toList = some x ∧
      x.isFinite = true
  | .string s => Binary64.overflow ≤ n.natAbs ∧ s = toString n
  | _ => False

theorem exists_keptInexactly_formatText {n : Int} (hn : n < -2 ^ 63 ∨ 2 ^ 63 ≤ n) :
    ∃ o j, Options.parse (formatText n) = .ok o ∧ o.members.get? "input_mode" = some j ∧
      KeptInexactly n j := by
  have hlimit : (signedLimit : Int) = 2 ^ 63 := rfl
  obtain ⟨o, hparse, hget⟩ := exists_parse_formatText n
  rw [inferValue_writeInteger, if_neg (by omega)] at hget
  by_cases hfinite : n.natAbs < Binary64.overflow
  · have hread : readDouble? (toString n).toList = some (decimalDouble n) := by
      rw [toList_toString, readDouble?_writeInteger]
    have hfin := (isFinite_decimalDouble (by omega)).mpr hfinite
    rw [if_pos hfinite] at hget
    exact ⟨o, _, hparse, hget, hfinite, hread, hfin⟩
  · rw [if_neg hfinite] at hget
    exact ⟨o, _, hparse, hget, not_lt.mp hfinite, rfl⟩

theorem not_asksFor_of_keptInexactly {o : Options} {n : Int} {j : Json}
    (h : o.members.get? "input_mode" = some j) (hj : KeptInexactly n j) (m : Int64) :
    ¬ o.AsksFor m := by
  rintro (⟨habsent, -⟩ | hgiven)
  · rw [h] at habsent
    cases habsent
  · rw [h] at hgiven
    rw [Option.some.inj hgiven] at hj
    exact hj

/-- What the making of evaluators from options is to do, for all weights and all options: it follows
what the option for the format asks for, takes notice of nothing else, gives every number of 64 bits
its own format when the number is written as a text, and rejects longer numbers. -/
structure FollowsOptions
    (make : Option WeightsFile → Options → Except BackendFault Evaluator) : Prop where
  ok_iff : ∀ weights o e, make weights o = .ok e ↔
    ∃ n, o.AsksFor n ∧ e.capabilities = ⟨.ofCode n, .classical, .none⟩
  fault : ∀ weights o, (∀ n, ¬ o.AsksFor n) →
    ∃ reason, make weights o = .error (.invalidOption ⟨"input_mode", reason⟩)
  congr : ∀ weights weights' o o',
    o.members.get? "input_mode" = o'.members.get? "input_mode" → make weights o = make weights' o'
  text : ∀ n : Int64, ∃ o e, Options.parse (formatText n.toInt) = .ok o ∧
    (∀ weights, make weights o = .ok e) ∧ e.capabilities.input.code = n ∧
    ∀ m, e.capabilities.checkInput (.ofCode m) = .ok () ↔ m = n
  longText : ∀ n : Int, n < -2 ^ 63 ∨ 2 ^ 63 ≤ n → ∃ o j, Options.parse (formatText n) = .ok o ∧
    o.members.get? "input_mode" = some j ∧ KeptInexactly n j ∧
    ∀ weights, ∃ reason, make weights o = .error (.invalidOption ⟨"input_mode", reason⟩)

theorem create_followsOptions :
    FollowsOptions fun weights o => (create weights o).run.value := by
  simp only [value_create]
  constructor
  case ok_iff =>
    intro _ o e
    rw [ofOptions_eq_ok_iff]
    simp only [eq_ofFormatCode_iff]
  case fault => exact fun _ o hasks => ofOptions_eq_error hasks
  case congr => exact fun _ _ o o' h => ofOptions_congr h
  case text =>
    intro n
    obtain ⟨o, hparse, hasks⟩ := exists_asksFor_formatText n
    refine ⟨o, ofFormatCode n, hparse, fun _ => ofOptions_eq_ok_iff.mpr ⟨n, hasks, rfl⟩,
      InputFormat.code_ofCode n, fun m => ?_⟩
    rw [Capabilities.checkInput_eq_ok_iff]
    exact InputFormat.ofCode_injective.eq_iff
  case longText =>
    intro n hn
    obtain ⟨o, j, hparse, hget, hj⟩ := exists_keptInexactly_formatText hn
    exact ⟨o, j, hparse, hget, hj,
      fun _ => ofOptions_eq_error (not_asksFor_of_keptInexactly hget hj)⟩

end Evaluator

end PieceSquare
