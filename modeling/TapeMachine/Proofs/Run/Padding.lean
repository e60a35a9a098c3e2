import Mathlib.Data.List.Induction
import TapeMachine.Batch
import TapeMachine.Proofs.Document.Selection
import TapeMachine.Proofs.Refinement
import TapeMachine.Proofs.Run.Lockstep

/-!
# Blanks behind a content are invisible

A run never looks at the layout of its tapes: configurations with the same ideal configuration run
in lockstep, however many cells their tapes have laid out or visited (`WellFormed.lockstep_ideal`).
Contents that differ in the blanks behind them seed the same ideal tapes, so their runs report the
same.
-/

namespace TapeMachine

namespace Tape

/-- Blanks at the end of a word do not change which symbol stands where. -/
theorem getD_trimBlanks (blank : Char) (word : List Char) (position : Nat) :
    (trimBlanks blank word).getD position blank = word.getD position blank := by
  induction word using List.reverseRecOn with
  | nil => rfl
  | append_singleton word last ih =>
      rw [trimBlanks_append_singleton]
      split
      case isFalse => rfl
      case isTrue same => rw [ih, same, getD_append_blank]

/-- Sound tapes with the same symbols and the same blank have the same trimmed content. -/
theorem content_true_eq {first second : Tape} (soundFirst : first.Sound)
    (soundSecond : second.Sound) (blank : first.blank = second.blank)
    (ideal : first.ideal = second.ideal) : first.content true = second.content true := by
  have symbols : first.symbolAt = second.symbolAt := congrArg Ideal.Tape.cells ideal
  obtain ⟨shortest, trimmed, least⟩ := content_true soundFirst
  rw [blank, symbols] at least
  rw [trimmed, symbols, content_true_of_isLeast soundSecond least]

end Tape

namespace Machine

open TapeMachine.Configuration

variable {machine : Machine} {here there : Configuration}

/-- The next action depends on the state and the symbols read. -/
theorem nextAction_congr (state : here.state = there.state)
    (symbols : here.symbols = there.symbols) :
    machine.nextAction here = machine.nextAction there := by
  rw [nextAction, nextAction, state, symbols]

/-- Configurations of a machine that differ in the layout of their tapes at most. -/
structure SameIdeal (machine : Machine) (here there : Configuration) : Prop where
  soundHere : here.Sound machine
  soundThere : there.Sound machine
  ideal : here.ideal = there.ideal

/-- An action does to the ideal configuration what the ideal machine does. -/
theorem WellFormed.ideal_apply (wellFormed : machine.WellFormed) (sound : here.Sound machine)
    {action : Action} (next : machine.nextAction here = .ok action) :
    (here.apply action).Sound machine ∧
      (here.apply action).ideal = (Ideal.step machine here.ideal).2 := by
  have soundStep := sound_step sound
  have idealStep := wellFormed.ideal_step sound
  rw [step_of_nextAction next] at soundStep idealStep
  exact ⟨soundStep, by rw [idealStep]⟩

/-- The layout of tapes has no say in a run. -/
theorem WellFormed.lockstep_ideal (wellFormed : machine.WellFormed) :
    Lockstep machine machine machine.SameIdeal where
  steps same := congrArg Ideal.Configuration.steps same.ideal
  next := by
    rintro here there ⟨soundHere, soundThere, ideal⟩
    have symbols : here.symbols = there.symbols := by
      rw [← symbols_ideal, ← symbols_ideal, ideal]
    have nextThere : machine.nextAction there = machine.nextAction here :=
      (nextAction_congr (congrArg Ideal.Configuration.state ideal) symbols).symm
    cases next : machine.nextAction here with
    | error halt => exact .inl ⟨halt, rfl, nextThere.trans next⟩
    | ok action =>
        rw [next] at nextThere
        obtain ⟨soundNext, idealNext⟩ := wellFormed.ideal_apply soundHere next
        obtain ⟨soundPartner, idealPartner⟩ := wellFormed.ideal_apply soundThere nextThere
        refine .inr ⟨action, action, rfl, nextThere, soundNext, soundPartner, ?_⟩
        rw [idealNext, idealPartner, ideal]

/-- Configurations that differ in layout only show the same trimmed contents. -/
theorem SameIdeal.contents_eq (same : machine.SameIdeal here there) :
    TapeBank.contents here.tapes true = TapeBank.contents there.tapes true := by
  have ideals : here.tapes.map Tape.ideal = there.tapes.map Tape.ideal :=
    congrArg Ideal.Configuration.tapes same.ideal
  refine Checks.map_eq_map_of_views ideals fun tape listed partner partnerListed ideal => ?_
  obtain ⟨sound, blank⟩ := same.soundHere.tapes tape listed
  obtain ⟨partnerSound, partnerBlank⟩ := same.soundThere.tapes partner partnerListed
  exact Tape.content_true_eq sound partnerSound (blank.trans partnerBlank.symm) ideal

/-- Configurations that differ in layout only give the same report with the same outcome. -/
theorem SameIdeal.result_eq (same : machine.SameIdeal here there) (outcome : Outcome) :
    machine.result outcome here = machine.result outcome there := by
  have state : here.state = there.state := congrArg Ideal.Configuration.state same.ideal
  have steps : here.steps = there.steps := congrArg Ideal.Configuration.steps same.ideal
  have heads : here.heads = there.heads := by
    rw [← heads_ideal, ← heads_ideal, same.ideal]
  have symbols : here.symbols = there.symbols := by
    rw [← symbols_ideal, ← symbols_ideal, same.ideal]
  rw [result, result, state, steps, heads, symbols]

/-- Contents that agree tape by tape, apart from blanks behind them. A tape without content counts
as empty. -/
def AgreeUpToBlanks (machine : Machine) (contents others : List String) : Prop :=
  ∀ index, Tape.trimBlanks machine.blank (contents.getD index "").toList =
    Tape.trimBlanks machine.blank (others.getD index "").toList

theorem AgreeUpToBlanks.start_eq {contents others : List String}
    (agree : machine.AgreeUpToBlanks contents others) :
    Ideal.start machine contents = Ideal.start machine others := by
  have tapes (index : Nat) :
      Ideal.Tape.seeded (contents.getD index "").toList machine.blank =
        Ideal.Tape.seeded (others.getD index "").toList machine.blank := by
    rw [Ideal.Tape.seeded, Ideal.Tape.seeded]
    congr 1
    funext position
    rw [← Tape.getD_trimBlanks, agree index, Tape.getD_trimBlanks]
  simp only [Ideal.start, tapes]

/-- Runs on contents that agree up to blanks give the same report. -/
theorem WellFormed.report_eq (wellFormed : machine.WellFormed) {contents others : List String}
    (fit : contents.length ≤ machine.tapeCount) (othersFit : others.length ≤ machine.tapeCount)
    (agree : machine.AgreeUpToBlanks contents others) (config : RunConfig) :
    ∃ finish partner, machine.runOn config contents = .ok finish ∧
      machine.runOn config others = .ok partner ∧
      machine.report finish = machine.report partner := by
  obtain ⟨initial, start, sound, seeded, -⟩ := machine.start_eq_ok fit
  obtain ⟨other, otherStart, otherSound, otherSeeded, -⟩ := machine.start_eq_ok othersFit
  have same : machine.SameIdeal initial other :=
    ⟨sound, otherSound, by rw [seeded, otherSeeded, agree.start_eq]⟩
  obtain ⟨outcome, last⟩ := wellFormed.lockstep_ideal.run config same
  refine ⟨machine.run config initial, machine.run config other, ?_, ?_, ?_⟩
  · rw [runOn, start]
    rfl
  · rw [runOn, otherStart]
    rfl
  · rw [report, report, RunEnd.result, RunEnd.result, outcome, last.result_eq, last.contents_eq]

/-- Blanks behind a content are invisible: runs on contents that agree tape by tape up to the blanks
behind them report the same result and the same trimmed contents, and so do batches whose cases
agree in this way. -/
theorem blank_padding_is_invisible {document : Document} {machine : Machine}
    (compiled : Machine.ofDocument document = .ok machine) (config : RunConfig) :
    (∀ contents others : List String, contents.length ≤ machine.tapeCount →
      others.length ≤ machine.tapeCount → machine.AgreeUpToBlanks contents others →
      ∃ finish partner, machine.runOn config contents = .ok finish ∧
        machine.runOn config others = .ok partner ∧
        finish.result machine = partner.result machine ∧
        TapeBank.contents finish.configuration.tapes true =
          TapeBank.contents partner.configuration.tapes true) ∧
    ∀ cases others : List Case,
      List.Forall₂ (fun case other => case.tapes.length ≤ machine.tapeCount ∧
        other.tapes.length ≤ machine.tapeCount ∧
        machine.AgreeUpToBlanks case.tapes other.tapes) cases others →
      (machine.runBatch config cases).map (Except.map machine.report) =
        (machine.runBatch config others).map (Except.map machine.report) := by
  have wellFormed := wellFormed_of_ofDocument compiled
  constructor
  · intro contents others fit othersFit agree
    obtain ⟨finish, partner, runs, partnerRuns, same⟩ :=
      wellFormed.report_eq fit othersFit agree config
    exact ⟨finish, partner, runs, partnerRuns, congrArg CaseReport.result same,
      congrArg CaseReport.tapes same⟩
  · intro cases others pairs
    induction pairs with
    | nil => rfl
    | @cons case other cases others pair _ ih =>
        obtain ⟨fit, othersFit, agree⟩ := pair
        obtain ⟨finish, partner, runs, partnerRuns, same⟩ :=
          wellFormed.report_eq fit othersFit agree config
        simp only [runBatch, List.map_cons, runs, partnerRuns, Except.map, same] at ih ⊢
        rw [ih]

/-- Two blanks behind the content of the first tape and none on the second, against no padding and
no second tape. -/
theorem blank_padding_is_invisible_on_crowded :
    Machine.ofDocument .crowded = .ok .crowded ∧ ["a__", ""].length ≤ Machine.crowded.tapeCount ∧
      ["a"].length ≤ Machine.crowded.tapeCount ∧
      Machine.crowded.AgreeUpToBlanks ["a__", ""] ["a"] ∧
      ∃ finish partner, Machine.crowded.runOn {} ["a__", ""] = .ok finish ∧
        Machine.crowded.runOn {} ["a"] = .ok partner ∧
        finish.result .crowded = partner.result .crowded ∧
        (Machine.crowded.runBatch {} [{ tapes := ["a__", ""], expected := none }]).map
            (Except.map Machine.crowded.report) =
          (Machine.crowded.runBatch {} [{ tapes := ["a"], expected := none }]).map
            (Except.map Machine.crowded.report) := by
  have agree : Machine.crowded.AgreeUpToBlanks ["a__", ""] ["a"] := by
    intro index
    match index with
    | 0 => decide
    | 1 => rfl
    | index + 2 => rfl
  obtain ⟨runs, batches⟩ := blank_padding_is_invisible Document.ofDocument_crowded {}
  obtain ⟨finish, partner, first, second, same, -⟩ := runs _ _ (by decide) (by decide) agree
  exact ⟨Document.ofDocument_crowded, by decide, by decide, agree, finish, partner, first, second,
    same, batches _ _ (.cons ⟨by decide, by decide, agree⟩ .nil)⟩

end Machine

end TapeMachine
