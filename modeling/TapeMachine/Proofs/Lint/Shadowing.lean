import TapeMachine.Lint
import TapeMachine.Proofs.Document.Selection
import TapeMachine.Proofs.Run.Trajectory

/-!
# Shadowed rules

A rule is shadowed when it has a wildcard and an earlier rule of its state covers it. Shadowed
rules are exactly the rules that are never found (`WellFormed.exists_findRule?_iff`): fill the
wildcards of a rule with the separator, which is no tape symbol, and only the rules that cover it
accept the result. They are also exactly the rules that are reported, each of them once
(`WellFormed.shadowReports_eq`).
-/

namespace TapeMachine

/-- An item of a list without repeated keys has another key than the items around it. -/
theorem ne_of_nodup_map {α β : Type} {key : α → β} {item other : α} {before after : List α}
    (distinct : ((before ++ item :: after).map key).Nodup) (listed : other ∈ before ++ after) :
    key other ≠ key item := by
  rw [List.map_append, List.map_cons, List.nodup_middle, List.nodup_cons,
    ← List.map_append] at distinct
  intro same
  exact distinct.1 (List.mem_map.mpr ⟨other, listed, same⟩)

/-- A rule has a wildcard and is covered by a rule listed earlier. -/
def Rule.Shadowed (earlier : List Rule) (rule : Rule) : Prop :=
  PatternSymbol.any ∈ rule.pattern ∧ ∃ cover ∈ earlier, cover.pattern.covers rule.pattern

instance (earlier : List Rule) (rule : Rule) : Decidable (rule.Shadowed earlier) :=
  inferInstanceAs (Decidable (_ ∧ _))

/-- Whether a finding is about the rule with a written pattern in the state with a name. -/
def Finding.shadows (state pattern : String) : Finding → Bool
  | .shadowedRule name found _ => name == state && found == pattern
  | _ => false

namespace Machine

variable {machine : Machine} {state : Nat} {rule : Rule} {before after : List Rule}
  {symbols : List Char}

/-! ## Rules that are never found -/

/-- The other rules of a state have other patterns. -/
theorem WellFormed.pattern_ne (wellFormed : machine.WellFormed)
    (rules : machine.rulesOf state = before ++ rule :: after) {other : Rule}
    (listed : other ∈ before ++ after) : other.pattern ≠ rule.pattern := by
  have distinct := wellFormed.distinct_rulesOf state
  rw [rules] at distinct
  exact ne_of_nodup_map distinct listed

/-- The other rules of a state have other written patterns. -/
theorem WellFormed.render_ne (wellFormed : machine.WellFormed)
    (rules : machine.rulesOf state = before ++ rule :: after) {other : Rule}
    (listed : other ∈ before ++ after) :
    other.pattern.render machine.wildcard ≠ rule.pattern.render machine.wildcard := by
  have allowed : ∀ found ∈ before ++ rule :: after, machine.signature.AllowsRule found := by
    rw [← rules]
    exact fun found => wellFormed.allowsRule
  have mine := allowed rule (by simp)
  have theirs := allowed other (by grind)
  have same := Signature.render_inj wellFormed.proper theirs.components theirs.pattern
    mine.components mine.pattern
  exact mt same.mp (wellFormed.pattern_ne rules listed)

/-- No rule names the separator, which is no tape symbol. -/
theorem WellFormed.separator_notMem_pattern (wellFormed : machine.WellFormed)
    (listed : rule ∈ machine.rulesOf state) :
    PatternSymbol.literal Pattern.separator ∉ rule.pattern :=
  fun named => wellFormed.proper.separator ((wellFormed.allowsRule listed).pattern _ named)

/-- A rule without wildcard is found where its symbols are read. -/
theorem WellFormed.findRule?_literals (wellFormed : machine.WellFormed)
    (rules : machine.rulesOf state = before ++ rule :: after)
    (literals : rule.pattern.literals? = some symbols) :
    machine.findRule? state symbols = some rule := by
  have spelled := Pattern.literals?_eq_some.mp literals
  rw [findRule?_eq_or, wellFormed.exactRule?_eq_find?, Option.or_eq_some_iff]
  refine .inl (List.find?_eq_some_iff_append.mpr ⟨by simp [spelled], before, after, rules, ?_⟩)
  intro earlier inFront
  have other := wellFormed.pattern_ne rules (List.mem_append_left after inFront)
  simpa [← spelled] using other

/-- A rule with a wildcard is found where no rule consists of the symbols read, it accepts them,
and no earlier rule does. -/
theorem WellFormed.findRule?_wildcard (wellFormed : machine.WellFormed)
    (rules : machine.rulesOf state = before ++ rule :: after)
    (wildcard : PatternSymbol.any ∈ rule.pattern) :
    machine.findRule? state symbols = some rule ↔
      machine.exactRule? state symbols = none ∧
        (∀ earlier ∈ before, ¬ earlier.pattern.accepts symbols) ∧
        rule.pattern.accepts symbols := by
  have inexact : machine.exactRule? state symbols ≠ some rule := by
    rw [wellFormed.exactRule?_eq_find?]
    intro found
    have spelled : rule.pattern = symbols.map PatternSymbol.literal := by
      simpa using List.find?_some found
    simp [spelled] at wildcard
  have later : before.find? (·.pattern.accepts symbols) ≠ some rule := by
    intro found
    have inFront := List.mem_of_find?_eq_some found
    exact wellFormed.pattern_ne rules (List.mem_append_left after inFront) rfl
  have first : (rule :: after).find? (·.pattern.accepts symbols) = some rule ↔
      rule.pattern.accepts symbols := by
    constructor
    · intro found
      simpa using List.find?_some found
    · intro accepted
      exact List.find?_cons_of_pos accepted
  rw [findRule?_eq_or, Option.or_eq_some_iff, or_iff_right inexact, rules, List.find?_append,
    Option.or_eq_some_iff, or_iff_right later, List.find?_eq_none, first]

/-- A rule that is not shadowed is found where the separator is read in place of its wildcards: no
rule names the separator, so only the rules that cover it accept these symbols. -/
theorem WellFormed.findRule?_written (wellFormed : machine.WellFormed)
    (rules : machine.rulesOf state = before ++ rule :: after)
    (wildcard : PatternSymbol.any ∈ rule.pattern) (unshadowed : ¬ rule.Shadowed before) :
    machine.findRule? state (rule.pattern.written Pattern.separator) = some rule := by
  have unnamed : ∀ other ∈ before ++ rule :: after,
      PatternSymbol.literal Pattern.separator ∉ other.pattern := by
    rw [← rules]
    exact fun other => wellFormed.separator_notMem_pattern
  rw [wellFormed.findRule?_wildcard rules wildcard]
  refine ⟨?_, fun earlier inFront accepted => ?_, ?_⟩
  · rw [wellFormed.exactRule?_eq_find?, List.find?_eq_none, rules]
    intro other listed spelled
    rw [beq_iff_eq] at spelled
    apply unnamed other listed
    rw [spelled]
    exact List.mem_map_of_mem (List.mem_map_of_mem wildcard)
  · rw [Pattern.accepts_written (unnamed earlier (by simp [inFront]))] at accepted
    exact unshadowed ⟨wildcard, earlier, inFront, accepted⟩
  · rw [Pattern.accepts_written (unnamed rule (by simp))]
    exact Pattern.covers_refl rule.pattern

/-- The rules that are found for some symbols are those that are not shadowed. -/
theorem WellFormed.exists_findRule?_iff (wellFormed : machine.WellFormed)
    (rules : machine.rulesOf state = before ++ rule :: after) :
    (∃ symbols, machine.findRule? state symbols = some rule) ↔ ¬ rule.Shadowed before := by
  constructor
  · rintro ⟨symbols, found⟩ ⟨wildcard, cover, inFront, covers⟩
    obtain ⟨-, skipped, accepted⟩ := (wellFormed.findRule?_wildcard rules wildcard).mp found
    exact skipped cover inFront (Pattern.accepts_of_covers covers accepted)
  · intro unshadowed
    by_cases wildcard : PatternSymbol.any ∈ rule.pattern
    · exact ⟨_, wellFormed.findRule?_written rules wildcard unshadowed⟩
    · obtain ⟨symbols, literals⟩ := Pattern.exists_literals? wildcard
      exact ⟨symbols, wellFormed.findRule?_literals rules literals⟩

/-! ## Rules that are reported -/

/-- The number of findings that report a rule of a state as shadowed. -/
def shadowReports (machine : Machine) (state : Nat) (rule : Rule) : Nat :=
  machine.findings.countP
    (Finding.shadows (machine.stateName state) (rule.pattern.render machine.wildcard))

/-- The patterns with wildcards of two lists are those of the first and of the second. -/
theorem wildcardPatterns_append (first second : List Rule) :
    wildcardPatterns (first ++ second) = wildcardPatterns first ++ wildcardPatterns second := by
  simp [wildcardPatterns]

/-- A pattern with a wildcard comes from a rule. -/
theorem mem_wildcardPatterns {rules : List Rule} {pattern : Pattern} :
    pattern ∈ wildcardPatterns rules ↔
      (∃ rule ∈ rules, rule.pattern = pattern) ∧ PatternSymbol.any ∈ pattern := by
  rw [wildcardPatterns, List.mem_filter, Pattern.literals?_isNone, List.mem_map]

/-- A rule with a wildcard adds its pattern. -/
theorem wildcardPatterns_cons_wildcard (wildcard : PatternSymbol.any ∈ rule.pattern)
    (rules : List Rule) :
    wildcardPatterns (rule :: rules) = rule.pattern :: wildcardPatterns rules := by
  simp [wildcardPatterns, Pattern.literals?_isNone.mpr wildcard]

/-- A rule without a wildcard adds no pattern. -/
theorem wildcardPatterns_cons_literal (literal : PatternSymbol.any ∉ rule.pattern)
    (rules : List Rule) : wildcardPatterns (rule :: rules) = wildcardPatterns rules := by
  rw [← Pattern.literals?_isNone] at literal
  simp [wildcardPatterns, literal]

/-- A rule with a wildcard is shadowed where a search through the earlier patterns with a wildcard
finds one that covers it. -/
theorem find?_covers_isSome (wildcard : PatternSymbol.any ∈ rule.pattern) :
    ((wildcardPatterns before).find? (·.covers rule.pattern)).isSome ↔ rule.Shadowed before := by
  rw [List.find?_isSome]
  constructor
  · rintro ⟨pattern, member, covers⟩
    obtain ⟨⟨cover, inFront, rfl⟩, -⟩ := mem_wildcardPatterns.mp member
    exact ⟨wildcard, cover, inFront, covers⟩
  · rintro ⟨-, cover, inFront, covers⟩
    have general := Pattern.any_mem_of_covers covers wildcard
    exact ⟨cover.pattern, mem_wildcardPatterns.mpr ⟨⟨cover, inFront, rfl⟩, general⟩, covers⟩

/-- Rules are reported after those of the rules before them. -/
theorem shadowedIn_append (name : String) (earlier first second : List Pattern) :
    machine.shadowedIn name earlier (first ++ second) =
      machine.shadowedIn name earlier first ++
        machine.shadowedIn name (earlier ++ first) second := by
  induction first generalizing earlier with
  | nil => simp [shadowedIn]
  | cons pattern first ih =>
      simp only [List.cons_append, shadowedIn, ih, List.append_assoc, List.nil_append]
      split <;> rfl

/-- A finding about a state is about one of its patterns, and names the first of the earlier ones
that covers it. -/
theorem exists_find?_of_mem_shadowedIn {name : String} {earlier patterns : List Pattern}
    {finding : Finding} (reported : finding ∈ machine.shadowedIn name earlier patterns) :
    ∃ front pattern back cover, patterns = front ++ pattern :: back ∧
      (earlier ++ front).find? (·.covers pattern) = some cover ∧
      finding = .shadowedRule name (pattern.render machine.wildcard)
        (Pattern.render cover machine.wildcard) := by
  -- The patterns that are passed join the earlier ones.
  induction patterns generalizing earlier with
  | nil => simp [shadowedIn] at reported
  | cons pattern patterns ih =>
      have here : (∃ cover, earlier.find? (·.covers pattern) = some cover ∧
            finding = .shadowedRule name (pattern.render machine.wildcard)
              (Pattern.render cover machine.wildcard)) ∨
          finding ∈ machine.shadowedIn name (earlier ++ [pattern]) patterns := by
        simp only [shadowedIn] at reported
        split at reported
        · next cover found =>
            rcases List.mem_cons.mp reported with report | later
            · exact .inl ⟨cover, found, report⟩
            · exact .inr later
        · exact .inr reported
      rcases here with ⟨cover, found, report⟩ | later
      · exact ⟨[], pattern, patterns, cover, rfl, by simpa using found, report⟩
      · obtain ⟨front, other, back, cover, rfl, found, report⟩ := ih later
        exact ⟨pattern :: front, other, back, cover, rfl, by simpa using found, report⟩

/-- The findings about a state name that state and one of its patterns. -/
theorem mem_shadowedIn {name : String} {earlier patterns : List Pattern} {finding : Finding}
    (reported : finding ∈ machine.shadowedIn name earlier patterns) :
    ∃ pattern ∈ patterns, ∃ cover, finding = .shadowedRule name (pattern.render machine.wildcard)
      (Pattern.render cover machine.wildcard) := by
  obtain ⟨front, pattern, back, cover, rfl, -, report⟩ := exists_find?_of_mem_shadowedIn reported
  exact ⟨pattern, by simp, cover, report⟩

/-- The search for shadowed rules reports nothing else. -/
theorem exists_of_mem_shadowedRules {finding : Finding}
    (reported : finding ∈ machine.shadowedRules) :
    ∃ state pattern cover, finding = .shadowedRule state pattern cover := by
  obtain ⟨entry, -, inside⟩ := List.mem_flatMap.mp reported
  obtain ⟨pattern, -, cover, report⟩ := mem_shadowedIn inside
  exact ⟨_, _, _, report⟩

/-- Patterns with other written forms, and those of other states, do not add to the reports. -/
theorem countP_shadowedIn_eq_zero {name state text : String} {earlier patterns : List Pattern}
    (apart : name = state → ∀ other ∈ patterns, other.render machine.wildcard ≠ text) :
    (machine.shadowedIn name earlier patterns).countP (Finding.shadows state text) = 0 := by
  rw [List.countP_eq_zero]
  intro finding reported
  obtain ⟨other, listed, cover, rfl⟩ := mem_shadowedIn reported
  simp only [Finding.shadows, Bool.and_eq_true, beq_iff_eq]
  rintro ⟨same, written⟩
  exact apart same other listed written

/-- A report of a list of names says nothing else. -/
theorem eq_of_mem_reportNames {report : List String → Finding} {names : List String}
    {finding : Finding} (reported : finding ∈ reportNames report names) :
    finding = report names := by
  rw [reportNames] at reported
  split at reported
  · cases reported
  · exact List.mem_singleton.mp reported

/-- All reports of shadowed rules stand in the last part of the findings. -/
theorem countP_findings (name text : String) :
    machine.findings.countP (Finding.shadows name text) =
      machine.shadowedRules.countP (Finding.shadows name text) := by
  have silent (report : List String → Finding) (names : List String)
      (other : (report names).shadows name text = false) :
      (reportNames report names).countP (Finding.shadows name text) = 0 := by
    rw [List.countP_eq_zero]
    intro finding reported
    rw [eq_of_mem_reportNames reported, other]
    exact Bool.false_ne_true
  rw [findings, List.countP_append, List.countP_append, silent _ _ rfl, silent _ _ rfl]
  omega

/-- The reports about a rule of a state are among the findings about that state. -/
theorem WellFormed.countP_shadowedRules (wellFormed : machine.WellFormed) {entry : StateEntry}
    (listed : entry ∈ machine.states.toList) (text : String) :
    machine.shadowedRules.countP (Finding.shadows entry.name text) =
      (machine.shadowedIn entry.name [] (wildcardPatterns entry.rules)).countP
        (Finding.shadows entry.name text) := by
  obtain ⟨before, after, states⟩ := List.append_of_mem listed
  have distinct : ((before ++ entry :: after).map (·.name)).Nodup := by
    rw [← states]
    exact wellFormed.proper.distinctStates
  have silent : ∀ others ⊆ before ++ after,
      (others.flatMap fun other =>
        machine.shadowedIn other.name [] (wildcardPatterns other.rules)).countP
          (Finding.shadows entry.name text) = 0 := by
    intro others inside
    rw [List.countP_flatMap, List.sum_eq_zero_iff_forall_eq_nat]
    intro count counted
    obtain ⟨other, listed, rfl⟩ := List.mem_map.mp counted
    refine countP_shadowedIn_eq_zero fun same => ?_
    exact absurd same (ne_of_nodup_map distinct (inside listed))
  rw [shadowedRules, states, List.flatMap_append, List.flatMap_cons, List.countP_append,
    List.countP_append, silent before (by simp), silent after (by simp)]
  omega

/-- A rule of a state is reported once if it is shadowed, and not at all otherwise. -/
theorem WellFormed.shadowReports_eq (wellFormed : machine.WellFormed)
    (rules : machine.rulesOf state = before ++ rule :: after) :
    machine.shadowReports state rule = if rule.Shadowed before then 1 else 0 := by
  obtain ⟨entry, position, entryRules⟩ : ∃ entry, machine.states[state]? = some entry ∧
      entry.rules = before ++ rule :: after := by
    rw [rulesOf] at rules
    split at rules
    · next entry position => exact ⟨entry, position, rules⟩
    · simp at rules
  have named : machine.stateName state = entry.name := by rw [stateName, position]
  -- The other rules of the state have other written patterns.
  have silent : ∀ others ⊆ before ++ after, ∀ earlier,
      (machine.shadowedIn entry.name earlier (wildcardPatterns others)).countP
        (Finding.shadows entry.name (rule.pattern.render machine.wildcard)) = 0 := by
    intro others inside earlier
    refine countP_shadowedIn_eq_zero fun _ pattern member => ?_
    obtain ⟨⟨other, listed, rfl⟩, -⟩ := mem_wildcardPatterns.mp member
    exact wellFormed.render_ne rules (inside listed)
  rw [shadowReports, countP_findings, named,
    wellFormed.countP_shadowedRules (mem_states_of_getElem? position), entryRules,
    wildcardPatterns_append, shadowedIn_append, List.countP_append, silent before (by simp),
    Nat.zero_add, List.nil_append]
  by_cases wildcard : PatternSymbol.any ∈ rule.pattern
  · rw [wildcardPatterns_cons_wildcard wildcard, shadowedIn]
    have last := silent after (by simp) (wildcardPatterns before ++ [rule.pattern])
    split
    · next cover found =>
        have shadowed : rule.Shadowed before := by
          rw [← find?_covers_isSome wildcard, found]
          rfl
        rw [if_pos shadowed, List.countP_cons, last]
        simp [Finding.shadows]
    · next uncovered =>
        have unshadowed : ¬ rule.Shadowed before := by
          rw [← find?_covers_isSome wildcard, uncovered]
          simp
        rw [if_neg unshadowed, last]
  · rw [wildcardPatterns_cons_literal wildcard, silent after (by simp)]
    exact (if_neg fun shadowed : rule.Shadowed before => wildcard shadowed.1).symm

/-- The reports about shadowed rules are exact: a rule of a state is reported once if no symbols
make the machine find it, and not at all if some do. So a rule without wildcard is never reported,
a rule that is not reported is found for some symbols, and a reported rule is not applied anywhere
on the way from any configuration. -/
theorem shadowReports_exact {document : Document} {machine : Machine}
    (accepted : Machine.ofDocument document = .ok machine) {state : Nat} {rule : Rule}
    (listed : rule ∈ machine.rulesOf state) :
    ((∀ symbols, machine.findRule? state symbols ≠ some rule) →
      machine.shadowReports state rule = 1) ∧
    (∀ symbols, machine.findRule? state symbols = some rule →
      machine.shadowReports state rule = 0) ∧
    (rule.pattern.literals?.isSome → machine.shadowReports state rule = 0) ∧
    (machine.shadowReports state rule = 0 →
      ∃ symbols, machine.findRule? state symbols = some rule) ∧
    (machine.shadowReports state rule ≠ 0 → ∀ (initial : Configuration) (count : Nat),
      (machine.after count initial).state = state →
        machine.appliedRule? (machine.after count initial) ≠ some rule) := by
  have wellFormed := wellFormed_of_ofDocument accepted
  obtain ⟨before, after, rules⟩ := List.append_of_mem listed
  have found := wellFormed.exists_findRule?_iff rules
  rw [wellFormed.shadowReports_eq rules]
  have unreported (symbols : List Char) (selected : machine.findRule? state symbols = some rule) :
      (if rule.Shadowed before then 1 else 0) = 0 :=
    if_neg (found.mp ⟨symbols, selected⟩)
  refine ⟨fun hidden => ?_, unreported, fun literal => ?_, fun silent => ?_,
    fun reported initial count here applied => ?_⟩
  · rw [if_pos]
    by_contra unshadowed
    obtain ⟨symbols, selected⟩ := found.mpr unshadowed
    exact hidden symbols selected
  · obtain ⟨symbols, literals⟩ := Option.isSome_iff_exists.mp literal
    exact unreported symbols (wellFormed.findRule?_literals rules literals)
  · apply found.mpr
    intro shadowed
    simp [shadowed] at silent
  · have selected := findRule?_of_appliedRule? applied
    rw [here] at selected
    exact reported (unreported _ selected)

/-- A rule that an earlier rule covers is reported, and nothing that is read makes the machine find
it, while the two rules before it and the one after it are not reported. -/
theorem shadowReports_crowded :
    Machine.ofDocument .crowded = .ok .crowded ∧
      (Machine.crowded.rulesOf 0).map (crowded.shadowReports 0) = [0, 0, 1, 0] ∧
      ∃ rule ∈ Machine.crowded.rulesOf 0, rule.pattern = [.any, .literal '_'] ∧
        ∀ symbols, crowded.findRule? 0 symbols ≠ some rule := by
  have counted : (Machine.crowded.rulesOf 0).map (crowded.shadowReports 0) = [0, 0, 1, 0] := by
    decide
  refine ⟨Document.ofDocument_crowded, counted, _, List.getElem_mem (by decide : 2 < _), rfl, ?_⟩
  intro symbols selected
  obtain ⟨-, found, -⟩ := shadowReports_exact Document.ofDocument_crowded
    (List.getElem_mem (by decide : 2 < (Machine.crowded.rulesOf 0).length))
  exact absurd (found symbols selected) (by decide)

end Machine

end TapeMachine
