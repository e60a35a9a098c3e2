import Mathlib.Data.List.Flatten
import TapeMachine.Proofs.Lint.Shadowing

/-!
# The rules that shadow others

A report about a shadowed rule names the first earlier rule with a wildcard that covers it.
Covering is transitive, so no rule before that one covers it in turn: the rule named by a report is
not reported itself (`exists_culprit_of_find?`). The reports follow the order of the rules, and the
state and the written pattern in a report tell which rule it is about.
-/

namespace TapeMachine

/-- The state and the written pattern of the rule that a finding is about. -/
def Finding.site? : Finding → Option (String × String)
  | .shadowedRule state pattern _ => some (state, pattern)
  | _ => none

namespace Machine

/-- The state and the written pattern of every rule, in state order and rule order. -/
def ruleSites (machine : Machine) : List (String × String) :=
  machine.states.toList.flatMap fun entry =>
    entry.rules.map fun rule => (entry.name, rule.pattern.render machine.wildcard)

variable {machine : Machine} {before : List Rule}

/-! ## Culprits -/

/-- Where the patterns with a wildcard are cut at one of them, the rules are cut at its rule. -/
theorem exists_rule_of_wildcardPatterns {rules : List Rule} {front back : List Pattern}
    {pattern : Pattern} (patterns : wildcardPatterns rules = front ++ pattern :: back) :
    ∃ before rule after, rules = before ++ rule :: after ∧ rule.pattern = pattern ∧
      PatternSymbol.any ∈ pattern ∧ wildcardPatterns before = front := by
  rw [wildcardPatterns, List.filter_eq_append_iff] at patterns
  obtain ⟨first, rest, mapped, rfl, atRest⟩ := patterns
  obtain ⟨skipped, last, rfl, literal, wildcard, -⟩ := List.filter_eq_cons_iff.mp atRest
  rw [← List.append_assoc, List.map_eq_append_iff] at mapped
  obtain ⟨before, later, rfl, mappedBefore, mappedLater⟩ := mapped
  obtain ⟨rule, after, rfl, rfl, -⟩ := List.map_eq_cons_iff.mp mappedLater
  refine ⟨before, rule, after, rfl, rfl, Pattern.literals?_isNone.mp wildcard, ?_⟩
  rw [wildcardPatterns, mappedBefore, List.filter_append, List.filter_eq_nil_iff.mpr literal,
    List.append_nil]

/-- The first pattern with a wildcard that covers another one belongs to a rule that is not
shadowed: whatever covers that rule would have been found before it. -/
theorem exists_culprit_of_find? {pattern cover : Pattern}
    (found : (wildcardPatterns before).find? (·.covers pattern) = some cover) :
    ∃ first culprit between, before = first ++ culprit :: between ∧ culprit.pattern = cover ∧
      PatternSymbol.any ∈ cover ∧ cover.covers pattern ∧ ¬ culprit.Shadowed first := by
  obtain ⟨covers, front, back, patterns, uncovered⟩ := List.find?_eq_some_iff_append.mp found
  obtain ⟨first, culprit, between, rfl, rfl, wildcard, rfl⟩ :=
    exists_rule_of_wildcardPatterns patterns
  refine ⟨first, culprit, between, rfl, rfl, wildcard, covers, ?_⟩
  rintro ⟨-, earlier, listed, coversCulprit⟩
  have general := Pattern.any_mem_of_covers coversCulprit wildcard
  have inFront := mem_wildcardPatterns.mpr ⟨⟨earlier, listed, rfl⟩, general⟩
  have coversPattern := Pattern.covers_trans coversCulprit covers
  simpa [coversPattern] using uncovered _ inFront

/-- A report about a rule stands among the findings about shadowed rules. -/
theorem mem_shadowedRules_of_mem_findings {state pattern shadowedBy : String}
    (reported : .shadowedRule state pattern shadowedBy ∈ machine.findings) :
    .shadowedRule state pattern shadowedBy ∈ machine.shadowedRules := by
  simp only [findings, List.mem_append] at reported
  rcases reported with (unreachable | deadEnd) | shadowed
  · cases eq_of_mem_reportNames unreachable
  · cases eq_of_mem_reportNames deadEnd
  · exact shadowed

/-- A report is about a rule of the state it names, and names the pattern that the search among the
earlier rules of that state finds. -/
theorem exists_rule_of_mem_findings {state pattern shadowedBy : String}
    (reported : .shadowedRule state pattern shadowedBy ∈ machine.findings) :
    ∃ position before rule after cover, machine.stateName position = state ∧
      machine.rulesOf position = before ++ rule :: after ∧
      rule.pattern.render machine.wildcard = pattern ∧
      Pattern.render cover machine.wildcard = shadowedBy ∧
      (wildcardPatterns before).find? (·.covers rule.pattern) = some cover := by
  obtain ⟨entry, listed, inside⟩ :=
    List.mem_flatMap.mp (mem_shadowedRules_of_mem_findings reported)
  obtain ⟨position, declared⟩ := List.mem_iff_getElem?.mp listed
  rw [Array.getElem?_toList] at declared
  obtain ⟨front, _, back, cover, patterns, found, same⟩ := exists_find?_of_mem_shadowedIn inside
  obtain ⟨before, rule, after, rules, rfl, -, rfl⟩ := exists_rule_of_wildcardPatterns patterns
  obtain ⟨rfl, rfl, rfl⟩ := Finding.shadowedRule.inj same
  refine ⟨position, before, rule, after, cover, ?_, ?_, rfl, rfl, found⟩
  · rw [stateName, declared]
  · rw [rulesOf, declared]
    exact rules

/-! ## Order -/

/-- The reports about one state follow the order of its patterns. -/
theorem filterMap_shadowedIn_sublist (name : String) (earlier patterns : List Pattern) :
    ((machine.shadowedIn name earlier patterns).filterMap Finding.site?).Sublist
      (patterns.map fun pattern => (name, pattern.render machine.wildcard)) := by
  induction patterns generalizing earlier with
  | nil => exact .slnil
  | cons pattern patterns ih =>
      rw [shadowedIn]
      split
      · exact (ih _).cons_cons _
      · exact (ih _).cons _

/-- All reports about rules follow the order of the states and of their rules. -/
theorem filterMap_findings_sublist (machine : Machine) :
    (machine.findings.filterMap Finding.site?).Sublist machine.ruleSites := by
  have silent (report : List String → Finding) (names : List String)
      (other : (report names).site? = none) :
      (reportNames report names).filterMap Finding.site? = [] := by
    rw [List.filterMap_eq_nil_iff]
    intro finding reported
    rw [eq_of_mem_reportNames reported, other]
  rw [findings, List.filterMap_append, List.filterMap_append, silent _ _ rfl, silent _ _ rfl,
    List.nil_append, List.nil_append, shadowedRules, List.filterMap_flatMap, ruleSites]
  refine List.Sublist.flatMap_right _ fun entry _ => ?_
  refine (filterMap_shadowedIn_sublist entry.name [] _).trans ?_
  have patterns : (wildcardPatterns entry.rules).Sublist (entry.rules.map (·.pattern)) :=
    List.filter_sublist
  have sites := patterns.map fun pattern => (entry.name, Pattern.render pattern machine.wildcard)
  rwa [List.map_map] at sites

/-- No two rules of a machine have the same state and the same written pattern. -/
theorem WellFormed.nodup_ruleSites (wellFormed : machine.WellFormed) : machine.ruleSites.Nodup := by
  rw [ruleSites, List.nodup_flatMap]
  constructor
  · intro entry listed
    have distinct := wellFormed.distinctPatterns entry listed
    rw [List.Nodup, List.pairwise_map] at distinct ⊢
    refine distinct.imp_of_mem fun {first second} firstListed secondListed other same => other ?_
    have mine := wellFormed.rules entry listed first firstListed
    have theirs := wellFormed.rules entry listed second secondListed
    exact (Signature.render_inj wellFormed.proper mine.components mine.pattern theirs.components
      theirs.pattern).mp (congrArg Prod.snd same)
  · have distinct : (machine.states.toList.map (·.name)).Nodup := wellFormed.proper.distinctStates
    rw [List.Nodup, List.pairwise_map] at distinct
    refine distinct.imp fun {first second} other site inFirst inSecond => other ?_
    obtain ⟨_, -, rfl⟩ := List.mem_map.mp inFirst
    obtain ⟨_, -, same⟩ := List.mem_map.mp inSecond
    exact (congrArg Prod.fst same).symm

/-- A report about a shadowed rule names a live culprit: an earlier rule of the same state that has
a wildcard, accepts all that the shadowed rule accepts, is found for some symbols, and is not
reported itself. The state and the written pattern in a report belong to one rule only, and the
reports come in state order and rule order. -/
theorem shadow_reports_name_live_culprits {document : Document} {machine : Machine}
    (compiled : Machine.ofDocument document = .ok machine) :
    (∀ state pattern shadowedBy, .shadowedRule state pattern shadowedBy ∈ machine.findings →
      ∃ position culprit rule, machine.stateName position = state ∧
        [culprit, rule].Sublist (machine.rulesOf position) ∧
        rule.pattern.render machine.wildcard = pattern ∧
        culprit.pattern.render machine.wildcard = shadowedBy ∧
        culprit.pattern.literals? = none ∧
        (∀ symbols, rule.pattern.accepts symbols → culprit.pattern.accepts symbols) ∧
        (∃ symbols, machine.findRule? position symbols = some culprit) ∧
        ∀ other, .shadowedRule state shadowedBy other ∉ machine.findings) ∧
    machine.ruleSites.Nodup ∧
    (machine.findings.filterMap Finding.site?).Sublist machine.ruleSites := by
  have wellFormed := wellFormed_of_ofDocument compiled
  refine ⟨?_, wellFormed.nodup_ruleSites, machine.filterMap_findings_sublist⟩
  intro state pattern shadowedBy reported
  obtain ⟨position, before, rule, after, cover, rfl, rules, rfl, rfl, found⟩ :=
    exists_rule_of_mem_findings reported
  obtain ⟨first, culprit, between, rfl, rfl, wildcard, covers, unshadowed⟩ :=
    exists_culprit_of_find? found
  have culpritRules : machine.rulesOf position =
      first ++ culprit :: (between ++ rule :: after) := by
    rw [rules, List.append_assoc, List.cons_append]
  refine ⟨position, culprit, rule, rfl, ?_, rfl, rfl, ?_, ?_, ?_, ?_⟩
  · rw [culpritRules]
    have inside : [rule].Sublist (between ++ rule :: after) := by simp
    exact (inside.cons_cons culprit).trans (List.sublist_append_right _ _)
  · rw [← Option.isNone_iff_eq_none, Pattern.literals?_isNone]
    exact wildcard
  · exact fun symbols => Pattern.accepts_of_covers covers
  · exact (wellFormed.exists_findRule?_iff culpritRules).mpr unshadowed
  · intro other culpritReported
    have silent : machine.shadowReports position culprit = 0 := by
      rw [wellFormed.shadowReports_eq culpritRules, if_neg unshadowed]
    rw [shadowReports, List.countP_eq_zero] at silent
    exact silent _ culpritReported (by simp [Finding.shadows])

end Machine

/-- A document with three rules each of which covers the next one. -/
def Document.layered : Document where
  name := "Layered"
  description := ""
  states := ["scan", "halt"]
  inputAlphabet := ["a"]
  tapeAlphabet := ["a", "_"]
  tapeCount := 3
  initialState := "scan"
  acceptingStates := ["halt"]
  blank := "_"
  wildcard := "*"
  unchanged := "*"
  transitions := [
    ("scan", [
      ("*,*,*", { write := ["*", "*", "*"], move := ["R", "R", "R"], nextState := "scan" }),
      ("a,*,*", { write := ["*", "a", "*"], move := ["S", "R", "S"], nextState := "halt" }),
      ("a,_,*", { write := ["_", "*", "*"], move := ["L", "S", "S"], nextState := "scan" })])]

/-- The machine of the layered document. -/
def Machine.layered : Machine where
  name := "Layered"
  summary := ""
  states := #[
    { name := "scan"
      accepting := false
      rules := [
        { pattern := [.any, .any, .any]
          action := { writes := [.keep, .keep, .keep], moves := [.right, .right, .right],
                      next := 0 } },
        { pattern := [.literal 'a', .any, .any]
          action := { writes := [.keep, .put 'a', .keep], moves := [.stay, .right, .stay],
                      next := 1 } },
        { pattern := [.literal 'a', .literal '_', .any]
          action := { writes := [.put '_', .keep, .keep], moves := [.left, .stay, .stay],
                      next := 0 } }] },
    { name := "halt", accepting := true, rules := [] }]
  inputAlphabet := ['a']
  tapeAlphabet := ['a', '_']
  tapeCount := 3
  blank := '_'
  wildcard := '*'
  unchanged := '*'
  initial := 0

/-- The layered document compiles to the layered machine. -/
theorem Document.ofDocument_layered : Machine.ofDocument .layered = .ok .layered := by
  rfl

/-- The last of the rules is covered by both others. Its report names the first one, since the
second one is reported itself. -/
theorem Machine.shadow_reports_of_layered :
    Machine.ofDocument .layered = .ok .layered ∧
      Machine.layered.findings = [.shadowedRule "scan" "a,*,*" "*,*,*",
        .shadowedRule "scan" "a,_,*" "*,*,*"] ∧
      ∃ position culprit rule, Machine.layered.stateName position = "scan" ∧
        [culprit, rule].Sublist (Machine.layered.rulesOf position) ∧
        rule.pattern.render '*' = "a,_,*" ∧ culprit.pattern.render '*' = "*,*,*" ∧
        (∃ symbols, Machine.layered.findRule? position symbols = some culprit) ∧
        ∀ other, .shadowedRule "scan" "*,*,*" other ∉ Machine.layered.findings := by
  have reports : Machine.layered.findings = [.shadowedRule "scan" "a,*,*" "*,*,*",
      .shadowedRule "scan" "a,_,*" "*,*,*"] := by
    decide
  obtain ⟨named, -, -⟩ := shadow_reports_name_live_culprits Document.ofDocument_layered
  obtain ⟨position, culprit, rule, state, listed, rendered, renderedCulprit, -, -, live, silent⟩ :=
    named "scan" "a,_,*" "*,*,*" (by simp [reports])
  exact ⟨Document.ofDocument_layered, reports, position, culprit, rule, state, listed, rendered,
    renderedCulprit, live, silent⟩

end TapeMachine
