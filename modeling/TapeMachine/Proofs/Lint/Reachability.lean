import Mathlib.Logic.Relation
import TapeMachine.Proofs.Lint.Shadowing
import TapeMachine.Proofs.Tape

/-!
# Reachable states

`Machine.Connected` says that a path of rules leads from the initial state to a state. The traversal
takes one pending state in each round. Every round leaves less to do, so the traversal ends, and
every round keeps `Traversal.Sound`, so it ends with exactly the connected states. No run leaves
the connected states, since each step follows a rule.
-/

namespace TapeMachine

namespace Machine

/-- A rule of the first state leads to the second one. -/
def Leads (machine : Machine) (first second : Nat) : Prop :=
  ∃ rule ∈ machine.rulesOf first, rule.action.next = second

/-- A path of rules leads from the initial state to a state. -/
def Connected (machine : Machine) : Nat → Prop :=
  Relation.ReflTransGen machine.Leads machine.initial

variable {machine : Machine} {state : Nat}

/-- The successors of a state are the states that its rules lead to. -/
theorem mem_successors {next : Nat} : next ∈ machine.successors state ↔ machine.Leads state next :=
  List.mem_map

/-! ## The traversal -/

/-- The states that a traversal has yet to take, and those that it has visited. -/
structure Traversal where
  pending : List Nat
  visited : List Nat

/-- One round of a traversal takes the first pending state. If it is new, it is visited, and the
states that its rules lead to are pending. -/
inductive Round (machine : Machine) : Traversal → Traversal → Prop where
  | skip {state : Nat} {pending visited : List Nat} (known : state ∈ visited) :
      Round machine ⟨state :: pending, visited⟩ ⟨pending, visited⟩
  | visit {state : Nat} {pending visited : List Nat} (new : state ∉ visited) :
      Round machine ⟨state :: pending, visited⟩
        ⟨((machine.successors state).filter (· ∉ state :: visited)).reverse ++ pending,
          state :: visited⟩

/-- The rules of the states that are not visited. -/
def openRules (machine : Machine) (visited : List Nat) : List Rule :=
  ((List.range machine.states.size).filter (· ∉ visited)).flatMap machine.rulesOf

/-- A bound on the rounds that are left: every rule of a state that is not visited can make one
more state pending. -/
def Traversal.left (machine : Machine) (traversal : Traversal) : Nat :=
  (machine.openRules traversal.visited).length + traversal.pending.length

/-- There are no rules for states that do not exist. -/
theorem rulesOf_of_size_le (outside : machine.states.size ≤ state) :
    machine.rulesOf state = [] := by
  rw [rulesOf, Array.getElem?_eq_none outside]

/-- Visiting a state closes its rules. -/
theorem openRules_cons {visited : List Nat} (new : state ∉ visited) :
    (machine.openRules visited).Perm
      (machine.rulesOf state ++ machine.openRules (state :: visited)) := by
  have others : (List.range machine.states.size).filter (· ∉ state :: visited) =
      ((List.range machine.states.size).filter (· ∉ visited)).erase state := by
    rw [(List.nodup_range.filter _).erase_eq_filter, List.filter_filter]
    refine List.filter_congr fun other _ => ?_
    grind
  rw [openRules, openRules, others]
  by_cases inside : state < machine.states.size
  · have listed : state ∈ (List.range machine.states.size).filter (· ∉ visited) := by
      simp [inside, new]
    rw [← List.flatMap_cons]
    exact (List.perm_cons_erase listed).flatMap_right machine.rulesOf
  · have unlisted : state ∉ (List.range machine.states.size).filter (· ∉ visited) := by
      simp [inside]
    rw [List.erase_of_not_mem unlisted, rulesOf_of_size_le (Nat.le_of_not_lt inside)]
    simp

/-- At first, the rules of all states are open. -/
theorem length_openRules_nil : (machine.openRules []).length = machine.ruleCount := by
  have rules : (List.range machine.states.size).map machine.rulesOf =
      machine.states.toList.map (·.rules) := by
    apply List.ext_getElem
    · simp
    · intro state inside _
      have declared : state < machine.states.size := by simpa using inside
      simp [rulesOf, declared]
  simp [openRules, ruleCount, List.flatMap_def, rules]

/-- Every round leaves less to do. -/
theorem Round.left_lt {now next : Traversal} (round : machine.Round now next) :
    next.left machine < now.left machine := by
  cases round with
  | skip known => simp [Traversal.left]
  | @visit state pending visited new =>
      -- What is pushed is paid for by the rules that the visit closes.
      have fresh : ((machine.successors state).filter (· ∉ state :: visited)).length ≤
          (machine.rulesOf state).length := by
        refine (List.length_filter_le _ _).trans ?_
        rw [successors, List.length_map]
      have closes : (machine.openRules visited).length =
          (machine.rulesOf state).length + (machine.openRules (state :: visited)).length := by
        rw [(openRules_cons new).length_eq, List.length_append]
      simp only [Traversal.left, List.length_append, List.length_reverse, List.length_cons]
      omega

/-- There is no endless traversal. -/
theorem wellFounded_round (machine : Machine) :
    WellFounded fun next now => machine.Round now next :=
  Subrelation.wf Round.left_lt (measure (Traversal.left machine)).wf

/-- With enough fuel, the traversal goes on until nothing is pending. -/
theorem rounds_visitFrom {fuel : Nat} {pending visited : List Nat}
    (enough : Traversal.left machine ⟨pending, visited⟩ ≤ fuel) :
    Relation.ReflTransGen machine.Round ⟨pending, visited⟩
      ⟨[], machine.visitFrom fuel pending visited⟩ := by
  fun_induction machine.visitFrom fuel pending visited with
  | case1 pending visited =>
      obtain ⟨-, rfl⟩ : machine.openRules visited = [] ∧ pending = [] := by
        simpa [Traversal.left] using enough
      exact .refl
  | case2 => exact .refl
  | case3 fuel state pending visited known ih =>
      have round : machine.Round ⟨state :: pending, visited⟩ ⟨pending, visited⟩ :=
        .skip (by simpa using known)
      have less := round.left_lt
      exact .head round (ih (by omega))
  | case4 fuel state pending visited new grown fresh ih =>
      have same : fresh = (machine.successors state).filter (· ∉ grown) :=
        List.filter_congr fun next _ => by simp
      have round : machine.Round ⟨state :: pending, visited⟩
          ⟨fresh.reverse ++ pending, grown⟩ := by
        rw [same]
        exact .visit (by simpa using new)
      have less := round.left_lt
      exact .head round (ih (by omega))

/-- The traversal starts with the initial state and ends with the reachable states. -/
theorem rounds_reachableStates (machine : Machine) :
    Relation.ReflTransGen machine.Round ⟨[machine.initial], []⟩ ⟨[], machine.reachableStates⟩ := by
  apply rounds_visitFrom
  rw [Traversal.left, length_openRules_nil, List.length_singleton]

namespace Traversal

/-- A state is pending or visited. -/
def Knows (traversal : Traversal) (state : Nat) : Prop :=
  state ∈ traversal.visited ∨ state ∈ traversal.pending

/-- What every round keeps: the traversal knows the initial state, all states that it knows are
connected, and it knows where the rules of visited states lead. -/
structure Sound (machine : Machine) (traversal : Traversal) : Prop where
  initial : traversal.Knows machine.initial
  connected : ∀ state, traversal.Knows state → machine.Connected state
  closed : ∀ state ∈ traversal.visited, ∀ next, machine.Leads state next → traversal.Knows next

end Traversal

/-- No round forgets a state. -/
theorem Round.knows {now next : Traversal} (round : machine.Round now next)
    (known : now.Knows state) : next.Knows state := by
  cases round with
  | skip old =>
      rcases known with visited | pending
      · exact .inl visited
      · rcases List.mem_cons.mp pending with rfl | later
        · exact .inl old
        · exact .inr later
  | visit new =>
      rcases known with visited | pending
      · exact .inl (List.mem_cons_of_mem _ visited)
      · rcases List.mem_cons.mp pending with rfl | later
        · exact .inl List.mem_cons_self
        · exact .inr (List.mem_append_right _ later)

/-- Every round keeps a traversal sound. -/
theorem Round.sound {now next : Traversal} (round : machine.Round now next)
    (sound : now.Sound machine) : next.Sound machine := by
  refine ⟨round.knows sound.initial, fun found known => ?_, fun found member target leads => ?_⟩
  · cases round with
    | skip old =>
        rcases known with visited | pending
        · exact sound.connected found (.inl visited)
        · exact sound.connected found (.inr (List.mem_cons_of_mem _ pending))
    | @visit state pending visited new =>
        have taken : machine.Connected state := sound.connected state (.inr List.mem_cons_self)
        rcases known with visited | pending
        · rcases List.mem_cons.mp visited with rfl | earlier
          · exact taken
          · exact sound.connected found (.inl earlier)
        · rcases List.mem_append.mp pending with fresh | later
          · have followed := List.mem_of_mem_filter (List.mem_reverse.mp fresh)
            exact .tail taken (mem_successors.mp followed)
          · exact sound.connected found (.inr (List.mem_cons_of_mem _ later))
  · have kept (known : now.Knows target) : next.Knows target := round.knows known
    cases round with
    | skip old => exact kept (sound.closed found member target leads)
    | @visit state pending visited new =>
        rcases List.mem_cons.mp member with rfl | earlier
        · -- The target of a rule of the visited state was seen before or is pushed now.
          by_cases old : target ∈ found :: visited
          · exact .inl old
          · have fresh : target ∈ (machine.successors found).filter (· ∉ found :: visited) :=
              List.mem_filter.mpr ⟨mem_successors.mpr leads, by simpa using old⟩
            exact .inr (List.mem_append_left _ (List.mem_reverse.mpr fresh))
        · exact kept (sound.closed found earlier target leads)

/-- Any number of rounds keeps a traversal sound. -/
theorem sound_of_rounds {now next : Traversal}
    (rounds : Relation.ReflTransGen machine.Round now next) (sound : now.Sound machine) :
    next.Sound machine := by
  induction rounds with
  | refl => exact sound
  | tail _ round ih => exact round.sound ih

/-- What the rounds keep holds when the traversal ends. -/
theorem sound_reachableStates (machine : Machine) :
    Traversal.Sound machine ⟨[], machine.reachableStates⟩ := by
  have start : Traversal.Sound machine ⟨[machine.initial], []⟩ := by
    refine ⟨.inr List.mem_cons_self, fun state known => ?_, fun state member => ?_⟩
    · obtain rfl : state = machine.initial := by simpa [Traversal.Knows] using known
      exact .refl
    · simp at member
  exact sound_of_rounds (rounds_reachableStates machine) start

/-- The reachable states are those that are connected to the initial state. -/
theorem mem_reachableStates : state ∈ machine.reachableStates ↔ machine.Connected state := by
  have sound := sound_reachableStates machine
  constructor
  · intro member
    exact sound.connected state (.inl member)
  · intro connected
    induction connected with
    | refl => simpa [Traversal.Knows] using sound.initial
    | tail _ leads ih => simpa [Traversal.Knows] using sound.closed _ ih _ leads

/-! ## Runs -/

/-- Every call of `step` stays in the state or follows one of its rules. -/
theorem connected_step {configuration : Configuration}
    (connected : machine.Connected configuration.state) :
    machine.Connected (machine.step configuration).2.state := by
  cases next : machine.nextAction configuration with
  | error halt =>
      rw [step_of_halt next]
      exact connected
  | ok action =>
      rw [step_of_nextAction next]
      obtain ⟨rule, applied, rfl⟩ := nextAction_eq_ok.mp next
      have listed := mem_rulesOf_of_findRule? (findRule?_of_appliedRule? applied)
      exact .tail connected ⟨rule, listed, rfl⟩

/-- A run stays among the connected states. -/
theorem connected_after {initial : Configuration} (connected : machine.Connected initial.state)
    (count : Nat) : machine.Connected (machine.after count initial).state := by
  induction count with
  | zero => exact connected
  | succ count ih =>
      rw [after_succ]
      exact connected_step ih

/-- Connected states are declared. -/
theorem WellFormed.lt_size_of_connected (wellFormed : machine.WellFormed)
    (connected : machine.Connected state) : state < machine.states.size := by
  cases connected with
  | refl => exact wellFormed.initial
  | tail _ leads =>
      obtain ⟨rule, listed, rfl⟩ := leads
      simpa [signature, stateNames] using (wellFormed.allowsRule listed).next

/-- A state without rules that does not accept rejects every visit. -/
theorem step_of_deadEnd {configuration : Configuration}
    (rejecting : machine.isAccepting configuration.state = false)
    (empty : machine.rulesOf configuration.state = []) :
    machine.step configuration =
      (.halted (.rejected
        { state := machine.stateName configuration.state, symbols := configuration.symbols }),
        configuration) := by
  apply step_of_halt
  have unmatched : machine.findRule? configuration.state configuration.symbols = none := by
    rw [Option.eq_none_iff_forall_not_mem]
    intro rule found
    simpa [empty] using mem_rulesOf_of_findRule? found
  simp [nextAction, rejecting, unmatched]

/-! ## Lists of states -/

/-- A list names exactly the declared states with a property, in declaration order and without
repetition. -/
structure ListsStates (machine : Machine) (names : List String) (property : Nat → Prop) : Prop where
  ordered : names.Sublist machine.stateNames
  distinct : names.Nodup
  members : ∀ state < machine.states.size, machine.stateName state ∈ names ↔ property state

/-- The names of the states, by their positions. -/
theorem stateNames_eq :
    machine.stateNames = (List.range machine.states.size).map machine.stateName := by
  apply List.ext_getElem
  · simp [stateNames]
  · intro state inside _
    have declared : state < machine.states.size := by simpa [stateNames] using inside
    simp [stateNames, stateName, declared]

/-- The names of the states that satisfy a condition list these states. -/
theorem WellFormed.listsStates_namesWhere (wellFormed : machine.WellFormed) {condition : Nat → Bool}
    {property : Nat → Prop} (agree : ∀ state, condition state ↔ property state) :
    machine.ListsStates (machine.namesWhere condition) property := by
  have distinct : machine.stateNames.Nodup := wellFormed.proper.distinctStates
  have ordered : (machine.namesWhere condition).Sublist machine.stateNames := by
    rw [stateNames_eq]
    exact List.filter_sublist.map machine.stateName
  refine ⟨ordered, ordered.nodup distinct, fun state declared => ?_⟩
  rw [namesWhere, ← agree, List.mem_map]
  constructor
  · rintro ⟨other, listed, same⟩
    rw [stateNames_eq] at distinct
    obtain ⟨otherDeclared, holds⟩ := List.mem_filter.mp listed
    obtain rfl := List.inj_on_of_nodup_map distinct otherDeclared (List.mem_range.mpr declared) same
    exact holds
  · intro holds
    exact ⟨state, List.mem_filter.mpr ⟨List.mem_range.mpr declared, holds⟩, rfl⟩

/-- The findings about reachability are exact. The traversal always ends. The findings name, unless
there are none, the states that no path of rules connects to the initial state, and then the
connected states that neither accept nor have rules. From the initial state, on any tapes, no run
is ever in a state of the first list, and in a state of the second the next step rejects and leaves
everything as it is. -/
theorem reachability_findings_exact {document : Document} {machine : Machine}
    (accepted : Machine.ofDocument document = .ok machine) :
    (WellFounded fun next now => machine.Round now next) ∧
    Relation.ReflTransGen machine.Round ⟨[machine.initial], []⟩ ⟨[], machine.reachableStates⟩ ∧
    ∃ (unreachable deadEnds : List String) (shadowed : List Finding),
      machine.findings =
        (if unreachable = [] then [] else [.unreachableStates unreachable]) ++
          (if deadEnds = [] then [] else [.deadEndStates deadEnds]) ++ shadowed ∧
      (∀ finding ∈ shadowed, ∃ state pattern cover,
        finding = .shadowedRule state pattern cover) ∧
      machine.ListsStates unreachable (fun state => ¬ machine.Connected state) ∧
      machine.ListsStates deadEnds (fun state => machine.Connected state ∧
        machine.isAccepting state = false ∧ machine.rulesOf state = []) ∧
      ∀ (initial : Configuration) (count : Nat), initial.state = machine.initial →
        let reached := machine.after count initial
        machine.stateName reached.state ∉ unreachable ∧
        (machine.stateName reached.state ∈ deadEnds →
          machine.step reached = (.halted (.rejected
            { state := machine.stateName reached.state, symbols := reached.symbols }),
            reached)) := by
  have wellFormed := wellFormed_of_ofDocument accepted
  have unreachable : machine.ListsStates (machine.namesWhere (!machine.reachableStates.contains ·))
      (fun state => ¬ machine.Connected state) :=
    wellFormed.listsStates_namesWhere fun state => by simp [mem_reachableStates]
  have deadEnds : machine.ListsStates
      (machine.namesWhere fun state => machine.reachableStates.contains state &&
        !machine.isAccepting state && (machine.rulesOf state).isEmpty)
      (fun state => machine.Connected state ∧
        machine.isAccepting state = false ∧ machine.rulesOf state = []) :=
    wellFormed.listsStates_namesWhere fun state => by simp [mem_reachableStates, and_assoc]
  refine ⟨wellFounded_round machine, rounds_reachableStates machine, _, _, machine.shadowedRules,
    ?_, fun finding => exists_of_mem_shadowedRules, unreachable, deadEnds,
    fun initial count started => ?_⟩
  · simp only [findings, reportNames, List.isEmpty_iff]
  · have connected : machine.Connected (machine.after count initial).state := by
      apply connected_after
      rw [started]
      exact .refl
    have declared := wellFormed.lt_size_of_connected connected
    refine ⟨fun listed => ?_, fun listed => ?_⟩
    · exact (unreachable.members _ declared).mp listed connected
    · obtain ⟨-, rejecting, empty⟩ := (deadEnds.members _ declared).mp listed
      exact step_of_deadEnd rejecting empty

/-- The state that no rules lead to is not connected, and a run on blank tapes comes to the state
without rules, where it is rejected. -/
theorem reachability_findings_crowded :
    let start : Configuration :=
      { state := 0, steps := 0, tapes := [Tape.ofList [] '_', Tape.ofList [] '_'] }
    Machine.ofDocument .crowded = .ok .crowded ∧
      Machine.crowded.findings = [.unreachableStates ["island"], .deadEndStates ["stuck"],
        .shadowedRule "scan" "*,_" "*,*"] ∧
      ¬ Machine.crowded.Connected 3 ∧
      (crowded.after 1 start).state = 2 ∧
      (crowded.step (crowded.after 1 start)).2 = crowded.after 1 start := by
  intro start
  have computed : Machine.crowded.findings = [.unreachableStates ["island"],
      .deadEndStates ["stuck"], .shadowedRule "scan" "*,_" "*,*"] := by
    decide
  obtain ⟨-, -, unreachable, deadEnds, shadowed, findings, only, lists, -, runs⟩ :=
    reachability_findings_exact Document.ofDocument_crowded
  rw [computed] at findings
  have first : .unreachableStates ["island"] ∉ shadowed := by
    simpa using only (.unreachableStates _)
  have second : .deadEndStates ["stuck"] ∉ shadowed := by
    simpa using only (.deadEndStates _)
  obtain ⟨rfl, rfl⟩ : unreachable = ["island"] ∧ deadEnds = ["stuck"] := by
    split at findings <;> split at findings <;> grind
  have symbols : start.symbols = ['_', '_'] := by
    simp [start, Configuration.symbols, TapeBank.read, Tape.read_eq_symbolAt]
  have next : Machine.crowded.nextAction start =
      .ok { writes := [.keep, .put 'a'], moves := [.stay, .stay], next := 2 } := by
    rw [nextAction, symbols]
    rfl
  have stuck : (crowded.after 1 start).state = 2 := by
    rw [after_succ, after_zero, step_of_nextAction next]
    rfl
  obtain ⟨-, rejects⟩ := runs start 1 rfl
  refine ⟨Document.ofDocument_crowded, computed, ?_, stuck, ?_⟩
  · exact (lists.members 3 (by decide)).mp (by decide)
  · rw [rejects (by rw [stuck]; decide)]

end Machine

end TapeMachine
