import Mathlib.Data.List.Perm.Basic
import TapeMachine.Command.Rows
import TapeMachine.Proofs.Command.Walk

/-!
# The exit code of a batch

While the rows of a batch are passed through, a failure sets the exit code and every other row can
only raise it. Since no row asks for more than a failure does, the code after all rows is the
greatest that one of them asks for (`CaseRow.exitCode_eq`). A row depends on nothing but its case:
it reports what running the machine on the tapes of that case alone reports.
-/

namespace TapeMachine

namespace CaseRow

/-! ## Passing the rows through -/

/-- The exit code that a row asks for. A missed expectation counts as a rejection. -/
def code : CaseRow → Nat
  | .failed _ => failureCode
  | .finished report passed =>
    max report.result.outcome.exitCode
      (if passed = some false then Outcome.rejected.exitCode else Outcome.accepted.exitCode)

/-- No row asks for more than a failure does. -/
theorem code_le_failureCode (row : CaseRow) : row.code ≤ failureCode := by
  cases row with
  | failed error => exact Nat.le_refl _
  | finished report passed =>
      have outcome : report.result.outcome.exitCode ≤ failureCode := by
        cases report.result.outcome <;> decide
      refine Nat.max_le.mpr ⟨outcome, ?_⟩
      split <;> decide

/-- One row makes the code worse or leaves it, as long as the code is not worse than a failure. -/
theorem raise_eq_max {code : Nat} (bounded : code ≤ failureCode) (row : CaseRow) :
    raise code row = max code row.code := by
  cases row with
  | failed error => exact (Nat.max_eq_right bounded).symm
  | finished report passed =>
      rw [raise, CaseRow.code]
      split
      case isTrue => rw [Nat.max_assoc]
      case isFalse => rw [show Outcome.accepted.exitCode = 0 from rfl, Nat.max_zero]

/-- The rows after a code raise it to the greatest code of them. The code stays within that of a
failure all along, so that a failure never lowers it. -/
theorem foldl_raise {code : Nat} (bounded : code ≤ failureCode) (rows : List CaseRow) :
    rows.foldl raise code = (rows.map CaseRow.code).foldl max code := by
  induction rows generalizing code with
  | nil => rfl
  | cons row rows ih =>
      rw [List.foldl_cons, raise_eq_max bounded, List.map_cons, List.foldl_cons]
      exact ih (Nat.max_le.mpr ⟨bounded, row.code_le_failureCode⟩)

/-- The exit code is the greatest that a row asks for. -/
theorem exitCode_eq (rows : List CaseRow) :
    exitCode rows = (rows.map CaseRow.code).max?.getD 0 := by
  rw [exitCode, foldl_raise (by decide), List.foldl_max]
  exact Nat.zero_max _

/-- A milder row after a failure. -/
example : exitCode [.failed { index := 1, tapeCount := 1 },
    .finished { result := ⟨.stepLimitExceeded, "copy", 9, [4], ['_']⟩, tapes := ["101"] }
      (some false)] = 3 := by decide

/-- The order of the rows does not matter for the exit code. -/
theorem exitCode_perm {rows others : List CaseRow} (reordered : rows.Perm others) :
    exitCode rows = exitCode others := by
  rw [exitCode, exitCode, foldl_raise (by decide), foldl_raise (by decide)]
  exact (reordered.map CaseRow.code).foldl_eq _

/-! ## What a row says -/

/-- What a batch says about a case that supplies more than the `tapeCount` tapes there are: its
number and the first tape that does not exist. Its code is 3. -/
structure SaysCrowded (row : CaseRow) (tapeCount outputTape : Nat) : Prop where
  code : row.code = 3
  text : ∀ number, row.text outputTape number =
    "case " ++ number.repr ++ ": error: " ++ ("Tape index " ++ tapeCount.repr ++
      " is out of range (machine has " ++ tapeCount.repr ++ " tapes)")
  json : ∀ number, row.toJson number = .object [
    ("case", .number number),
    ("error", .string ("Tape index " ++ tapeCount.repr ++ " is out of range (machine has " ++
      tapeCount.repr ++ " tapes)"))]

/-- What a batch says about a case that ends with `result` and `tapes`: its number, how the run
ended, the content of the output tape and whether it is the expected one. Its code is 0, 1 or 2 for
the outcome, and at least 1 if the expectation is missed. -/
structure SaysEnded (row : CaseRow) (outputTape : Nat) (expected : Option String)
    (result : RunResult) (tapes : List String) : Prop where
  code : row.code =
    max (match result.outcome with | .accepted => 0 | .rejected => 1 | .stepLimitExceeded => 2)
      (if expected.any (tapes[outputTape]? != some ·) then 1 else 0)
  text : ∀ number, row.text outputTape number =
    "case " ++ number.repr ++ ": " ++
      (match result.outcome with
        | .accepted => "accepted"
        | .rejected => "rejected"
        | .stepLimitExceeded => "step limit exceeded") ++
      " after " ++ result.steps.repr ++ " steps, output: " ++ (tapes[outputTape]?).getD "" ++
      expected.elim "" fun expected =>
        if tapes[outputTape]? = some expected then " [pass]" else " [FAIL]"
  json : ∀ number, row.toJson number = .object [
    ("case", .number number),
    ("passed", expected.elim .null fun expected => .bool (tapes[outputTape]? = some expected)),
    ("result", .object [
      ("heads", .array (result.heads.map .number)),
      ("outcome", .string (match result.outcome with
        | .accepted => "Accepted"
        | .rejected => "Rejected"
        | .stepLimitExceeded => "StepLimitExceeded")),
      ("state", .string result.state),
      ("steps", .number result.steps),
      ("symbols", .array (result.symbols.map fun symbol => .string symbol.toString))]),
    ("tapes", .array (tapes.map .string))]

/-- A refused case says so. -/
theorem saysCrowded_failed (tapeCount outputTape : Nat) :
    (failed { index := tapeCount, tapeCount }).SaysCrowded tapeCount outputTape where
  code := rfl
  text _ := rfl
  json _ := rfl

/-- A finished case says what it ended with. -/
theorem saysEnded_finished (outputTape : Nat) (expected : Option String) (result : RunResult)
    (tapes : List String) :
    (finished { result, tapes } (expected.map (tapes[outputTape]? == some ·))).SaysEnded outputTape
      expected result tapes where
  code := by
    rw [code]
    cases expected with
    | none => cases result.outcome <;> rfl
    | some expected => cases result.outcome <;> simp [Outcome.exitCode]
  text number := by
    obtain ⟨outcome, state, steps, heads, symbols⟩ := result
    cases expected with
    | none => cases outcome <;> rfl
    | some expected =>
        cases met : tapes[outputTape]? == some expected with
        | true =>
            have same : tapes[outputTape]? = some expected := beq_iff_eq.mp met
            cases outcome <;> simp [text.eq_def, Outcome.text, CaseReport.output?, same]
        | false =>
            have other : tapes[outputTape]? ≠ some expected := beq_eq_false_iff_ne.mp met
            cases outcome <;> simp [text.eq_def, Outcome.text, CaseReport.output?, met, other]
  json number := by
    obtain ⟨outcome, state, steps, heads, symbols⟩ := result
    cases expected with
    | none => cases outcome <;> rfl
    | some expected =>
        by_cases met : tapes[outputTape]? = some expected <;>
          cases outcome <;> simp [toJson, RunResult.toSortedJson, Outcome.toJson, Outcome.name,
            Json.numbers, Json.symbols, Json.strings, met]

end CaseRow

/-! ## One row for each case -/

/-- Rows that are numbered from one carry the numbers that follow their positions. -/
theorem CaseRow.map_zipIdx {α : Type} (rows : List CaseRow) (shown : Nat → CaseRow → α) :
    (rows.zipIdx 1).map (fun (row, number) => shown number row) =
      rows.mapIdx fun index row => shown (index + 1) row :=
  List.ext_getElem (by simp) (by simp [Nat.add_comm])

namespace Machine

/-- The row of a case. -/
def rowOf (machine : Machine) (config : RunConfig) (outputTape : Nat) (case : Case) : CaseRow :=
  CaseRow.of machine outputTape case (machine.runOn config case.tapes)

/-- The rows of a batch are those of its cases, one by one. -/
theorem all_runBatch (machine : Machine) (config : RunConfig) (outputTape : Nat)
    (cases : List Case) :
    CaseRow.all machine outputTape cases (machine.runBatch config cases) =
      cases.map (machine.rowOf config outputTape) := by
  rw [CaseRow.all, runBatch, List.zipWith_map_right, List.zipWith_self]
  rfl

/-- A case with too many tapes fails at the first of them that the machine does not have. -/
theorem rowOf_of_crowded {machine : Machine} {case : Case}
    (crowded : machine.tapeCount < case.tapes.length) (config : RunConfig) (outputTape : Nat) :
    machine.rowOf config outputTape case =
      .failed { index := machine.tapeCount, tapeCount := machine.tapeCount } := by
  rw [rowOf, runOn, start, TapeBank.seed, if_pos crowded]
  rfl

/-- A case whose tapes fit reports what the machine reports when it is run alone. -/
theorem rowOf_of_fit {machine : Machine} {case : Case}
    (fit : case.tapes.length ≤ machine.tapeCount) (config : RunConfig) (outputTape : Nat) :
    ∃ run, MachineRun.of machine case.tapes config false = .ok run ∧
      let report : CaseReport :=
        { result := run.finish.result machine
          tapes := TapeBank.contents run.finish.configuration.tapes true }
      machine.rowOf config outputTape case =
        .finished report (case.expected.map (report.tapes[outputTape]? == some ·)) := by
  obtain ⟨run, alone⟩ : ∃ run, MachineRun.of machine case.tapes config false = .ok run := by
    rw [MachineRun.of, Session.start, start, TapeBank.seed, if_neg (Nat.not_lt.mpr fit)]
    exact ⟨_, rfl⟩
  refine ⟨run, alone, ?_⟩
  rw [rowOf, runOn_eq, alone]
  rfl

/-- The row of a case whose tapes fit can be computed on words. -/
theorem WellFormed.rowOf_eq_words {machine : Machine} (wellFormed : machine.WellFormed)
    {case : Case} (fit : case.tapes.length ≤ machine.tapeCount) {config : RunConfig}
    {outputTape : Nat} :
    machine.rowOf config outputTape case =
      let ended := (Words.start machine case.tapes).run machine config.maxSteps
      let report := ended.2.report machine ended.1
      .finished report (report.passed? case outputTape) := by
  have reported := wellFormed.report_eq_words fit config
  rw [rowOf]
  cases ran : machine.runOn config case.tapes with
  | error refused =>
      rw [ran] at reported
      cases reported
  | ok finish =>
      rw [ran] at reported
      rw [CaseRow.of, Except.ok.inj reported]

/-- A batch exits with the worst code of its cases and prints one row for each of them in their
order, numbered from one. A case with more tapes than the machine has fails with code 3. Every other
case reports the result and the tapes that running the machine alone on its tapes ends with; its
code is that of the outcome, but at least 1 if there is an expectation that is not the content of
the output tape, or no such tape. Another order of the cases gives the rows in another order and the
same code. -/
theorem batch_exits_with_worst_code (machine : Machine) (config : RunConfig) (outputTape : Nat) :
    (∀ case : Case, machine.tapeCount < case.tapes.length →
      let row := machine.rowOf config outputTape case
      row = .failed { index := machine.tapeCount, tapeCount := machine.tapeCount } ∧
        row.SaysCrowded machine.tapeCount outputTape) ∧
    (∀ case : Case, case.tapes.length ≤ machine.tapeCount →
      ∃ run, MachineRun.of machine case.tapes config false = .ok run ∧
        let row := machine.rowOf config outputTape case
        let result := run.finish.result machine
        let tapes := TapeBank.contents run.finish.configuration.tapes true
        row = .finished { result, tapes }
            (case.expected.map (tapes[outputTape]? == some ·)) ∧
          row.SaysEnded outputTape case.expected result tapes) ∧
    ∀ (text : String) (json : Bool),
      let cases := Case.readAll text
      let rows := cases.map (machine.rowOf config outputTape)
      let transcript := machine.batchTranscript text outputTape config json
      transcript.stdout =
          (if json then
            Text.line ((Json.array
              (rows.mapIdx fun index row => row.toJson (index + 1))).render .pretty)
          else Text.unlines (rows.mapIdx fun index row => row.text outputTape (index + 1))) ∧
        transcript.exitCode = (rows.map CaseRow.code).max?.getD 0 ∧
        ∀ other, (Case.readAll other).Perm cases →
          ((Case.readAll other).map (machine.rowOf config outputTape)).Perm rows ∧
            (machine.batchTranscript other outputTape config json).exitCode =
              transcript.exitCode := by
  refine ⟨fun case crowded => ?_, fun case fit => ?_, fun text json => ?_⟩
  · have failed := rowOf_of_crowded crowded config outputTape
    refine ⟨failed, ?_⟩
    rw [failed]
    exact CaseRow.saysCrowded_failed machine.tapeCount outputTape
  · obtain ⟨run, alone, finished⟩ := rowOf_of_fit fit config outputTape
    refine ⟨run, alone, finished, ?_⟩
    rw [finished]
    exact CaseRow.saysEnded_finished _ _ _ _
  · have exits (text : String) : (machine.batchTranscript text outputTape config json).exitCode =
        CaseRow.exitCode ((Case.readAll text).map (machine.rowOf config outputTape)) := by
      rw [← all_runBatch]
      rfl
    refine ⟨?_, (exits text).trans (CaseRow.exitCode_eq _), fun other reordered => ?_⟩
    · rw [← CaseRow.map_zipIdx, ← CaseRow.map_zipIdx, ← all_runBatch]
      rfl
    · have rows := reordered.map (machine.rowOf config outputTape)
      exact ⟨rows, by rw [exits, exits, CaseRow.exitCode_perm rows]⟩

/-- A missed expectation, a case with too many tapes, one that needs more steps than it gets and one
that does as expected. The milder cases after the failure do not lower its code. -/
theorem batch_of_crowded_exits_with_three :
    let text := "a;a => b\na;a;a\naa\na;a =>\n"
    let transcript := Machine.crowded.batchTranscript text 1 { maxSteps := 2 } false
    Machine.crowded.tapeCount < ["a", "a", "a"].length ∧
      ["a", "a"].length ≤ Machine.crowded.tapeCount ∧
      transcript.stdout =
        "case 1: accepted after 1 steps, output:  [FAIL]\n" ++
        "case 2: error: Tape index 2 is out of range (machine has 2 tapes)\n" ++
        "case 3: step limit exceeded after 2 steps, output: \n" ++
        "case 4: accepted after 1 steps, output:  [pass]\n" ∧
      transcript.exitCode = 3 := by
  intro text transcript
  obtain ⟨crowded, -, batch⟩ := batch_exits_with_worst_code .crowded { maxSteps := 2 } 1
  obtain ⟨output, code, -⟩ := batch text false
  have cases : Case.readAll text = [
      { tapes := ["a", "a"], expected := some "b" }, { tapes := ["a", "a", "a"], expected := none },
      { tapes := ["aa"], expected := none }, { tapes := ["a", "a"], expected := some "" }] := by
    decide +kernel
  have wellFormed := wellFormed_of_ofDocument Document.ofDocument_crowded
  have rows : (Case.readAll text).map (rowOf .crowded { maxSteps := 2 } 1) = [
      .finished ⟨⟨.accepted, "halt", 1, [0, 1], ['_', '_']⟩, ["", ""]⟩ (some false),
      .failed ⟨2, 2⟩,
      .finished ⟨⟨.stepLimitExceeded, "scan", 2, [2, 2], ['_', '_']⟩, ["aa", ""]⟩ none,
      .finished ⟨⟨.accepted, "halt", 1, [0, 1], ['_', '_']⟩, ["", ""]⟩ (some true)] := by
    have refused := (crowded ⟨["a", "a", "a"], none⟩ (by decide)).1
    have two (case : Case) (fit : case.tapes.length ≤ 2) :=
      @WellFormed.rowOf_eq_words _ wellFormed case fit { maxSteps := 2 } 1
    rw [cases, List.map_cons, List.map_cons, List.map_cons, List.map_cons, List.map_nil, refused,
      two ⟨["a", "a"], some "b"⟩ (by decide), two ⟨["aa"], none⟩ (by decide),
      two ⟨["a", "a"], some ""⟩ (by decide)]
    decide +kernel
  rw [rows] at output code
  refine ⟨by decide, by decide, output.trans ?_, code.trans ?_⟩
  · decide +kernel
  · decide

end Machine

end TapeMachine
