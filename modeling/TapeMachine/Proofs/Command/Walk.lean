import TapeMachine.Batch
import TapeMachine.Command.Walk
import TapeMachine.Proofs.Document.Selection
import TapeMachine.Proofs.Run.Words
import TapeMachine.Proofs.Session.Trajectory

/-!
# A walk before a run changes nothing

A walk applies the rules that a run would apply, one at a time, and ends where the machine stops or
the budget is spent. `Session.exists_walk_eq` says how far it gets and what it sees on the way; a
run from there finds nothing left to do and ends as a run without the walk does.
-/

namespace TapeMachine

namespace Machine

variable {machine : Machine} {config : RunConfig} {configuration : Configuration}

/-- A run that is stopped or has no budget left stays where it is. -/
theorem configuration_run_eq_self
    (idle : machine.Stopped configuration ∨ config.maxSteps ≤ configuration.steps) :
    (machine.run config configuration).configuration = configuration := by
  cases next : machine.nextAction configuration with
  | error halt => exact congrArg Prod.snd (summary_run_of_halt next)
  | ok action =>
      rcases idle with ⟨halt, stop⟩ | spent
      · rw [step_of_nextAction next] at stop
        cases stop
      · exact congrArg Prod.snd (summary_run_of_spent next spent)

/-- A machine runs in a batch as it runs alone. -/
theorem runOn_eq (machine : Machine) (config : RunConfig) (tapes : List String) :
    machine.runOn config tapes =
      (MachineRun.of machine tapes config false).map MachineRun.finish := by
  rw [runOn, MachineRun.of, Session.start]
  cases machine.start tapes <;> rfl

end Machine

/-- A line of a walk tells the number of steps, the state, the tapes and the heads. -/
theorem Configuration.line_eq (configuration : Configuration) (machine : Machine) :
    configuration.line machine =
      "Step: " ++ configuration.steps.repr ++ ", State: " ++ machine.stateName configuration.state ++
        ", Tapes: [" ++ String.intercalate ", " (configuration.tapes.map (Tape.content · true)) ++
        "], Heads: [" ++
        String.intercalate ", " (configuration.tapes.map fun tape => tape.head.repr) ++ "]" := by
  have tapes : ", Tapes: [" = ", Tapes: " ++ "[" := rfl
  have heads : "], Heads: [" = "]" ++ (", Heads: " ++ "[") := rfl
  simp only [-String.reduceAppend, Configuration.line, Text.bracketed, Text.numberList,
    TapeBank.contents, Configuration.heads, TapeBank.heads, tapes, heads, String.append_assoc,
    List.map_map, Function.comp_def]

namespace Session

/-- A session starts with its machine, before the first step. -/
theorem eq_of_start {machine : Machine} {contents : List String} {session : Session}
    (start : Session.start machine contents = .ok session) :
    session.machine = machine ∧ session.current.steps = 0 := by
  simp only [Session.start, Machine.start, Checks.bind_eq_ok, Checks.pure_eq_ok] at start
  obtain ⟨initial, ⟨tapes, -, rfl⟩, rfl⟩ := start
  exact ⟨rfl, rfl⟩

/-- A walk follows the trajectory as far as the machine moves and the fuel lasts, and sees every
configuration on its way. -/
theorem exists_walk_eq {α : Type} (view : Configuration → α) (session : Session) (seen : Array α)
    (events : Array Event) (fuel : Nat) :
    ∃ count ≤ fuel, (session.walk view seen events fuel).1 =
        { session with current := session.machine.after count session.current } ∧
      (session.walk view seen events fuel).2.1.toList = seen.toList ++ (List.range count).map
        (fun index => view (session.machine.after (index + 1) session.current)) ∧
      (∀ earlier < count,
        ¬ session.machine.Stopped (session.machine.after earlier session.current)) ∧
      (session.machine.Stopped (session.machine.after count session.current) ∨ count = fuel) := by
  induction fuel generalizing session seen events with
  | zero => exact ⟨0, Nat.le_refl 0, rfl, by simp [walk], by simp, .inr rfl⟩
  | succ fuel ih =>
      cases next : session.machine.nextAction session.current with
      | error halt =>
          have stays : session.step = (.halted halt, session) := by
            rw [step, Machine.step_of_halt next]
          have stopped : session.machine.Stopped session.current :=
            ⟨halt, Machine.step_eq_halted.mpr next⟩
          refine ⟨0, Nat.zero_le _, ?_, ?_, by simp, .inl stopped⟩
          · rw [walk, stays]
            rfl
          · rw [walk, stays]
            simp
      | ok action =>
          -- The rest of the walk starts one configuration ahead, with one unit of fuel less.
          let following : Session :=
            { session with current := session.current.apply action }
          have moves : session.step = (.applied, following) := by
            rw [step, Machine.step_of_nextAction next]
          have ahead (count : Nat) := Machine.after_succ_of_nextAction next count
          obtain ⟨count, bounded, reached, sees, moving, ending⟩ :=
            ih following (seen.push (view following.current))
              (events ++ session.stepEvents.toArray)
          refine ⟨count + 1, by omega, ?_, ?_, fun earlier less => ?_, ?_⟩
          · rw [walk, moves, ahead]
            exact reached
          · simp only [walk, moves, sees, ahead, List.range_succ_eq_map, List.map_cons,
              List.map_map, Array.toList_push, List.append_assoc, List.singleton_append]
            rfl
          · cases earlier with
            | zero =>
                rintro ⟨halt, stop⟩
                rw [Machine.after_zero, Machine.step_of_nextAction next] at stop
                cases stop
            | succ earlier =>
                rw [ahead]
                exact moving earlier (by omega)
          · rw [ahead]
            exact ending.imp id fun spent => by omega

/-- After a walk within the budget a run applies no rule, and it ends as a run without the walk
does. -/
theorem summary_run_walk {α : Type} (view : Configuration → α) (session : Session)
    (seen : Array α) (events : Array Event) (config : RunConfig) :
    let walked := (session.walk view seen events (config.maxSteps - session.current.steps)).1
    (walked.run config).1.configuration = walked.current ∧
      (walked.run config).1.summary = (session.run config).1.summary := by
  intro walked
  obtain ⟨count, bounded, reached, -, moving, ending⟩ := session.exists_walk_eq view seen events
    (config.maxSteps - session.current.steps)
  change walked = _ at reached
  have steps := Machine.steps_after moving
  rw [reached]
  constructor
  · refine Machine.configuration_run_eq_self (ending.imp id fun spent => ?_)
    rw [steps]
    omega
  · cases count with
    | zero => rfl
    | succ count =>
        have reaches : session.machine.Reaches session.current
            (session.machine.after (count + 1) session.current) := ⟨count + 1, rfl, moving⟩
        exact (reaches.summary_run (by omega)).symm

/-- From before the first step a walk sees one configuration for each step count up to its last. -/
theorem toList_walk {α : Type} (view : Configuration → α) {session : Session}
    (zero : session.current.steps = 0) (fuel : Nat) :
    let walk := session.walk view #[view session.current] #[] fuel
    walk.2.1.toList = (List.range (walk.1.current.steps + 1)).map
        (fun index => view (session.machine.after index session.current)) ∧
      ∀ index ≤ walk.1.current.steps,
        (session.machine.after index session.current).steps = index := by
  intro walk
  obtain ⟨count, -, reached, sees, moving, -⟩ :=
    session.exists_walk_eq view #[view session.current] #[] fuel
  have passes (index : Nat) (bounded : index ≤ count) :
      (session.machine.after index session.current).steps = index := by
    have taken := Machine.steps_after fun earlier (less : earlier < index) =>
      moving earlier (Nat.lt_of_lt_of_le less bounded)
    rw [taken, zero, Nat.zero_add]
  have counted : walk.1.current.steps = count := by
    change walk.1 = _ at reached
    rw [reached, passes count (Nat.le_refl count)]
  rw [counted]
  refine ⟨?_, passes⟩
  rw [List.range_succ_eq_map, List.map_cons, List.map_map]
  exact sees

end Session

namespace MachineRun

/-- The exit code of a run tells its outcome. -/
theorem exitCode_transcript (run : MachineRun) (machine : Machine) (debug json : Bool) :
    (run.transcript machine debug json).exitCode =
      match (run.finish.result machine).outcome with
      | .accepted => 0
      | .rejected => 1
      | .stepLimitExceeded => 2 := by
  rw [transcript]
  cases (run.finish.result machine).outcome <;> rfl

/-- The transcript of a run after a walk has the lines of the walk before the output of the run
without it, and is otherwise the same. -/
theorem transcript_of_walk {machine : Machine} {walked plain : MachineRun}
    (silent : plain.walked = [])
    (same : walked.finish.summary = plain.finish.summary) (json : Bool) :
    let shown := walked.transcript machine true json
    let alone := plain.transcript machine false json
    shown.exitCode = alone.exitCode ∧ shown.stderr = alone.stderr ∧
      shown.stdout = Text.unlines walked.walked ++
        ((if json then "" else Text.line "\nFinal tapes:") ++ alone.stdout) := by
  have outcome : walked.finish.outcome = plain.finish.outcome := congrArg Prod.fst same
  have configuration : walked.finish.configuration = plain.finish.configuration :=
    congrArg Prod.snd same
  cases json <;>
    simp [transcript, RunEnd.result, outcome, configuration, silent, Text.unlines,
      String.append_assoc]

/-- A walk before a run changes nothing. With and without it a machine is refused its tapes for the
same reason, or it ends in the same configuration and reports the same result, with the same exit
code and the same output after the lines of the walk. The run that closes a walk applies no rule,
and the walk has shown one configuration more than there are steps: those after no step, after one
step and so on to the last, each with its number, its state, its tapes without trailing blanks and
its heads. -/
theorem walk_changes_nothing (machine : Machine) (tapes : List String) (config : RunConfig) :
    (∃ error, MachineRun.of machine tapes config true = .error error ∧
      MachineRun.of machine tapes config false = .error error) ∨
    ∃ session reached walked plain, Session.start machine tapes = .ok session ∧
      reached = (session.walk (Configuration.line · machine) #[session.current.line machine] #[]
        (config.maxSteps - session.current.steps)).1 ∧
      MachineRun.of machine tapes config true = .ok walked ∧
      MachineRun.of machine tapes config false = .ok plain ∧
      walked.finish.result machine = plain.finish.result machine ∧
      walked.finish.configuration = plain.finish.configuration ∧
      walked.finish = (reached.run config).1 ∧
      walked.finish.configuration = reached.current ∧
      walked.walked = (List.range ((walked.finish.result machine).steps + 1)).map (fun index =>
        let passed := machine.after index session.current
        "Step: " ++ index.repr ++ ", State: " ++ machine.stateName passed.state ++
          ", Tapes: [" ++ String.intercalate ", " (passed.tapes.map (Tape.content · true)) ++
          "], Heads: [" ++ String.intercalate ", " (passed.tapes.map fun tape => tape.head.repr) ++
          "]") ∧
      (∀ index ≤ (walked.finish.result machine).steps,
        (machine.after index session.current).steps = index) ∧
      ∀ json,
        let shown := walked.transcript machine true json
        let alone := plain.transcript machine false json
        shown.exitCode = alone.exitCode ∧ shown.stderr = alone.stderr ∧
          shown.stdout = Text.unlines walked.walked ++
            ((if json then "" else Text.line "\nFinal tapes:") ++ alone.stdout) ∧
          shown.exitCode =
            match (walked.finish.result machine).outcome with
            | .accepted => 0
            | .rejected => 1
            | .stepLimitExceeded => 2 := by
  cases start : Session.start machine tapes with
  | error refused =>
      refine .inl ⟨refused, ?_, ?_⟩
      · rw [MachineRun.of, start]
        rfl
      · rw [MachineRun.of, start]
        rfl
  | ok session =>
      obtain ⟨rfl, zero⟩ := Session.eq_of_start start
      let view (configuration : Configuration) := configuration.line session.machine
      let walk := session.walk view #[view session.current] #[]
        (config.maxSteps - session.current.steps)
      let walked : MachineRun :=
        { walked := walk.2.1.toList
          finish := (walk.1.run config).1
          events := walk.2.2 ++ (walk.1.run config).1.events }
      let plain : MachineRun :=
        { walked := []
          finish := (session.run config).1
          events := (session.run config).1.events }
      have walks : MachineRun.of session.machine tapes config true = .ok walked := by
        rw [MachineRun.of, start]
        rfl
      have runs : MachineRun.of session.machine tapes config false = .ok plain := by
        rw [MachineRun.of, start]
        rfl
      obtain ⟨closes, same⟩ :=
        session.summary_run_walk view #[view session.current] #[] config
      obtain ⟨listed, passes⟩ :=
        Session.toList_walk view zero (config.maxSteps - session.current.steps)
      have counted : (walked.finish.result session.machine).steps = walk.1.current.steps :=
        congrArg Configuration.steps closes
      have transcripts := @transcript_of_walk session.machine walked plain rfl same
      refine .inr ⟨session, walk.1, walked, plain, rfl, rfl, walks, runs,
        Session.result_eq_of_summary_eq same, congrArg Prod.snd same, rfl, closes, ?_,
        fun index bounded => passes index (counted ▸ bounded), fun json => ?_⟩
      · rw [counted]
        refine listed.trans (List.map_congr_left fun index member => ?_)
        refine (Configuration.line_eq _ _).trans ?_
        rw [passes index (Nat.le_of_lt_succ (List.mem_range.mp member))]
      · obtain ⟨code, errors, output⟩ := transcripts json
        exact ⟨code, errors, output, exitCode_transcript walked session.machine true json⟩

/-- A walk that the budget ends where the machine stops: three rules, and no fourth one. -/
theorem walk_of_crowded_changes_nothing :
    ∃ walked plain, MachineRun.of .crowded ["aa"] { maxSteps := 3 } true = .ok walked ∧
      MachineRun.of .crowded ["aa"] { maxSteps := 3 } false = .ok plain ∧
      walked.finish.result .crowded = plain.finish.result .crowded ∧
      walked.walked = [
        "Step: 0, State: scan, Tapes: [aa, ], Heads: [0, 0]",
        "Step: 1, State: scan, Tapes: [aa, ], Heads: [1, 1]",
        "Step: 2, State: scan, Tapes: [aa, ], Heads: [2, 2]",
        "Step: 3, State: stuck, Tapes: [aa, __a], Heads: [2, 2]"] ∧
      (walked.transcript .crowded true true).exitCode = 1 := by
  have wellFormed := Machine.wellFormed_of_ofDocument Document.ofDocument_crowded
  have fit : ["aa"].length ≤ Machine.crowded.tapeCount := by decide
  have shows := Configuration.shows_seeded fit
  have reported := wellFormed.report_eq_words fit { maxSteps := 3 }
  rcases walk_changes_nothing .crowded ["aa"] { maxSteps := 3 } with
    ⟨error, -, refused⟩ | ⟨session, reached, walked, plain, start, -, walks, runs, same, -, -, -,
      lines, -, transcripts⟩
  · rw [Machine.runOn_eq, refused] at reported
    cases reported
  · rw [Machine.runOn_eq, runs] at reported
    have result := congrArg CaseReport.result (Except.ok.inj reported)
    change plain.finish.result .crowded = _ at result
    rw [Session.start_eq_seeded fit] at start
    obtain rfl := Except.ok.inj start
    refine ⟨walked, plain, walks, runs, same, ?_, ?_⟩
    · let words := Words.start .crowded ["aa"]
      let seen (index : Nat) := Machine.crowded.after index (Session.seeded .crowded ["aa"]).current
      have state (index : Nat) : (seen index).state = (words.after .crowded index).state :=
        (shows.after wellFormed index).state
      have contents (index : Nat) : (seen index).tapes.map (Tape.content · true) =
          (words.after .crowded index).contents .crowded :=
        (shows.after wellFormed index).contents
      have heads (index : Nat) : (seen index).tapes.map (fun tape => tape.head.repr) =
          (words.after .crowded index).heads.map Nat.repr := by
        rw [← (shows.after wellFormed index).heads, Configuration.heads, TapeBank.heads, List.map_map]
        rfl
      rw [lines, same, result]
      simp only [seen] at state contents heads
      simp only [state, contents, heads]
      decide +kernel
    · rw [(transcripts true).2.2.2, same, result]
      decide +kernel

end MachineRun

end TapeMachine
