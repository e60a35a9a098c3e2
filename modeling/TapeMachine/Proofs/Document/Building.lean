import TapeMachine.Proofs.Document.Defects
import TapeMachine.Proofs.Document.NormalForm
import TapeMachine.Proofs.Document.Order

/-!
# Documents built rule by rule

Every call of `Document.addRule` files its rule under the state it is for. A document that is built
from a heading in this way has one table for each state with rules, which holds the rules of that
state in the order of the calls (`Document.mem_transitions_addRules`). Calls for different states may
be interleaved: this changes the order of the tables, of which a machine knows nothing
(`Machine.ofDocument_of_perm`).
-/

namespace TapeMachine

namespace Table

variable {α : Type} {table : Table α}

/-- Changing the value under a key changes what is found under this key and no other. -/
theorem get?_upsert (table : Table α) (key name : String) (fallback : α) (update : α → α) :
    get? (upsert table key fallback update) name =
      if name = key then some (update ((get? table key).getD fallback)) else get? table name := by
  induction table with
  | nil => by_cases same : name = key <;> simp [upsert, get?, same, Ne.symm]
  | cons entry table ih =>
      obtain ⟨present, value⟩ := entry
      by_cases found : present = key
      · by_cases same : name = key
        · simp [upsert, get?, found, same]
        · simp [upsert, get?, found, same, Ne.symm same]
      · by_cases same : present = name
        · obtain rfl := same
          simp [upsert, get?, found]
        · simp only [get?] at ih
          simp [upsert, get?, found, same, ih]

/-- A key keeps its place in the table, and a new key gets the last one. -/
theorem keys_upsert (table : Table α) (key : String) (fallback : α) (update : α → α) :
    keys (upsert table key fallback update) =
      if key ∈ keys table then keys table else keys table ++ [key] := by
  induction table with
  | nil => rfl
  | cons entry table ih =>
      obtain ⟨present, value⟩ := entry
      by_cases found : present = key
      · simp [upsert, keys, found]
      · simp only [keys] at ih
        simp only [upsert, keys, if_neg found, List.map_cons, ih, List.mem_cons, Ne.symm found,
          false_or]
        exact apply_ite (List.cons present) _ _ _

/-- Updating a table does not make a key occur twice. -/
theorem nodup_keys_upsert (distinct : (keys table).Nodup) (key : String) (fallback : α)
    (update : α → α) : (keys (upsert table key fallback update)).Nodup := by
  rw [keys_upsert]
  split
  · exact distinct
  · next fresh => exact distinct.append (by simp) (by simpa using fresh)

/-- Tables without repeated keys that hold the same entries find the same. -/
theorem get?_eq_of_perm {other : Table α} (distinct : (keys table).Nodup) (perm : table.Perm other)
    (key : String) : get? table key = get? other key := by
  have otherDistinct : (keys other).Nodup := (perm.map _).nodup_iff.mp distinct
  ext value
  rw [get?_eq_some distinct, get?_eq_some otherDistinct, perm.mem_iff]

end Table

/-! ## The order of the tables -/

section Order

variable {heading : Document} {tables others : Table (Table ActionRecord)}

/-- Documents whose tables stand in another order say the same. -/
theorem Document.reordered_of_perm (perm : tables.Perm others) :
    { heading with transitions := tables }.Reordered { heading with transitions := others } where
  name := rfl
  description := rfl
  states := .refl _
  inputAlphabet := .refl _
  tapeAlphabet := .refl _
  tapeCount := rfl
  initialState := rfl
  acceptingStates := .refl _
  blank := rfl
  wildcard := rfl
  unchanged := rfl
  transitions := ⟨tables, List.forall₂_same.mpr fun _ _ => ⟨rfl, .refl _, rfl⟩, perm⟩

/-- The order of the tables of a document has no influence on its machine. -/
theorem Machine.ofDocument_of_perm (perm : tables.Perm others) {machine : Machine}
    (compiled : Machine.ofDocument { heading with transitions := tables } = .ok machine) :
    Machine.ofDocument { heading with transitions := others } = .ok machine := by
  have admissible := exists_ofDocument_iff.mp ⟨machine, compiled⟩
  obtain ⟨partner, partnerCompiled⟩ :=
    exists_ofDocument_iff.mpr ((Document.reordered_of_perm perm).admissible admissible)
  -- A machine is determined by the document that it is written down as.
  have normal : { heading with transitions := tables }.normalForm =
      { heading with transitions := others }.normalForm := by
    simp only [Document.normalForm, Document.tableOf,
      Table.get?_eq_of_perm admissible.distinctSources perm]
  have written : machine.toDocument = partner.toDocument := by
    rw [toDocument_of_ofDocument compiled, toDocument_of_ofDocument partnerCompiled, normal]
  have same := (wellFormed_of_ofDocument compiled).ofDocument_toDocument
  rw [written, (wellFormed_of_ofDocument partnerCompiled).ofDocument_toDocument] at same
  rw [partnerCompiled, same]

end Order

/-! ## Adding rules -/

/-- A rule that is added to a document. -/
structure Addition where
  /-- The state that the rule is for. -/
  state : String
  pattern : String
  action : ActionRecord
  deriving DecidableEq, Repr

namespace Addition

/-- The rules for a state among those that are added, in order. -/
def rulesFor (name : String) (additions : List Addition) : Table ActionRecord :=
  (additions.filter (·.state = name)).map fun addition => (addition.pattern, addition.action)

/-- The last addition counts for the state that it names. -/
theorem rulesFor_append_singleton (name : String) (additions : List Addition)
    (addition : Addition) :
    rulesFor name (additions ++ [addition]) = rulesFor name additions ++
      if name = addition.state then [(addition.pattern, addition.action)] else [] := by
  by_cases same : name = addition.state <;> simp [rulesFor, same, Ne.symm]

end Addition

namespace Document

open Addition

/-- Add one rule after the other. -/
def addRules (document : Document) (additions : List Addition) : Document :=
  additions.foldl
    (fun document addition => document.addRule addition.state addition.pattern addition.action)
    document

/-- The last addition is added to the others. -/
theorem addRules_append_singleton (document : Document) (additions : List Addition)
    (addition : Addition) :
    document.addRules (additions ++ [addition]) =
      (document.addRules additions).addRule addition.state addition.pattern addition.action := by
  rw [addRules, List.foldl_append]
  rfl

variable {heading : Document}

/-- Adding rules leaves the heading as it is. -/
theorem addRules_eq (heading : Document) (additions : List Addition) :
    heading.addRules additions =
      { heading with transitions := (heading.addRules additions).transitions } := by
  induction additions using List.reverseRecOn with
  | nil => rfl
  | append_singleton additions addition ih =>
      rw [addRules_append_singleton, addRule, ih]

section Bare

variable (bare : heading.transitions = [])

include bare

/-- A state has a table exactly if rules were added for it, and the table holds these rules. -/
theorem get?_addRules (additions : List Addition) (name : String) :
    Table.get? (heading.addRules additions).transitions name =
      if rulesFor name additions = [] then none else some (rulesFor name additions) := by
  induction additions using List.reverseRecOn with
  | nil => simp [addRules, bare, rulesFor, Table.get?]
  | append_singleton additions addition ih =>
      rw [addRules_append_singleton, rulesFor_append_singleton]
      simp only [addRule, Table.get?_upsert]
      by_cases same : name = addition.state
      · obtain rfl := same
        by_cases first : rulesFor addition.state additions = [] <;>
          simp [ih, first, Table.push]
      · simp [same, ih]

/-- However rules are added, no state gets two tables. -/
theorem nodup_keys_addRules (additions : List Addition) :
    (Table.keys (heading.addRules additions).transitions).Nodup := by
  induction additions using List.reverseRecOn with
  | nil => simp [addRules, bare, Table.keys]
  | append_singleton additions addition ih =>
      rw [addRules_append_singleton]
      exact Table.nodup_keys_upsert ih _ _ _

/-- The tables of a built document are those of the states that rules were added for, each with its
rules in the order in which they were added. -/
theorem mem_transitions_addRules {additions : List Addition} {name : String}
    {table : Table ActionRecord} :
    (name, table) ∈ (heading.addRules additions).transitions ↔
      table = rulesFor name additions ∧ table ≠ [] := by
  rw [← Table.get?_eq_some (nodup_keys_addRules bare additions), get?_addRules bare]
  split
  · next none => simp [none]
  · next some =>
      rw [Option.some.injEq]
      constructor
      · rintro rfl
        exact ⟨rfl, some⟩
      · rintro ⟨rfl, -⟩
        rfl

/-- The table of a state holds the rules that were added for it, in order. -/
theorem tableOf_addRules (additions : List Addition) (name : String) :
    (heading.addRules additions).tableOf name = rulesFor name additions := by
  rw [tableOf, get?_addRules bare]
  split
  · next none => rw [none, Option.getD_none]
  · rw [Option.getD_some]

/-- The same rules for each state, added in another order, give the same tables in another order. -/
theorem perm_transitions_addRules {additions others : List Addition}
    (same : ∀ name, rulesFor name additions = rulesFor name others) :
    (heading.addRules additions).transitions.Perm (heading.addRules others).transitions := by
  refine (List.perm_ext_iff_of_nodup (.of_map _ (nodup_keys_addRules bare additions))
    (.of_map _ (nodup_keys_addRules bare others))).mpr ?_
  rintro ⟨name, table⟩
  rw [mem_transitions_addRules bare, mem_transitions_addRules bare, same]

end Bare

end Document

namespace Machine

open Addition

/-- A document that is built from a heading by adding rules depends on the order of the rules of each
state only. However the rules of different states are interleaved, either none of the documents
describes a machine or all describe the same. Each state with rules has one table, which holds the
rules that were added for it in this order, and the machine has the rules that the entries of this
table denote. No source is ever reported as repeated. -/
theorem only_order_within_states_matters {heading : Document} (bare : heading.transitions = [])
    (additions : List Addition) :
    (∀ others, (∀ name, rulesFor name additions = rulesFor name others) →
      (∃ machine, Machine.ofDocument (heading.addRules additions) = .ok machine ∧
        Machine.ofDocument (heading.addRules others) = .ok machine) ∨
      ∃ defect other, Machine.ofDocument (heading.addRules additions) = .error defect ∧
        Machine.ofDocument (heading.addRules others) = .error other) ∧
    (Table.keys (heading.addRules additions).transitions).Nodup ∧
    (∀ name table, (name, table) ∈ (heading.addRules additions).transitions ↔
      table = rulesFor name additions ∧ table ≠ []) ∧
    (∀ machine, Machine.ofDocument (heading.addRules additions) = .ok machine →
      ∀ state name, heading.states[state]? = some name →
        List.Forall₂ (heading.addRules additions).Denotes (rulesFor name additions)
          (machine.rulesOf state)) ∧
    ∀ source, Machine.ofDocument (heading.addRules additions) ≠
      .error (.repeatedSource source) := by
  have distinct := Document.nodup_keys_addRules bare additions
  refine ⟨fun others same => ?_, distinct, fun name table =>
    Document.mem_transitions_addRules bare, fun machine compiled state name declared => ?_,
    fun source refused => ?_⟩
  · have perm := Document.perm_transitions_addRules bare same
    rw [heading.addRules_eq additions, heading.addRules_eq others]
    cases compiled :
        Machine.ofDocument { heading with transitions := (heading.addRules additions).transitions }
      with
    | ok machine => exact .inl ⟨machine, rfl, ofDocument_of_perm perm compiled⟩
    | error defect =>
        cases otherCompiled :
            Machine.ofDocument { heading with transitions := (heading.addRules others).transitions }
          with
        | ok machine =>
            rw [ofDocument_of_perm perm.symm otherCompiled] at compiled
            cases compiled
        | error other => exact .inr ⟨defect, other, rfl, rfl⟩
  · have sameStates : (heading.addRules additions).states = heading.states := by
      rw [heading.addRules_eq additions]
    rw [← sameStates] at declared
    rw [← Document.tableOf_addRules bare]
    exact denotes_rulesOf compiled declared
  · have twice := duplicate_of_repeatedSource refused
    exact List.nodup_iff_forall_not_duplicate.mp distinct source twice

end Machine

/-- The rules of the crowded document, with the rule of the second state in between. -/
def Addition.interleaved : List Addition := [
  ⟨"scan", "a,*", { write := ["*", "*"], move := ["R", "R"], nextState := "scan" }⟩,
  ⟨"island", "_,_", { write := ["*", "*"], move := ["R", "S"], nextState := "halt" }⟩,
  ⟨"scan", "*,*", { write := ["*", "a"], move := ["S", "S"], nextState := "stuck" }⟩,
  ⟨"scan", "*,_", { write := ["_", "*"], move := ["<", "-"], nextState := "scan" }⟩,
  ⟨"scan", "a,a", { write := ["_", "_"], move := ["L", ">"], nextState := "halt" }⟩]

/-- The same rules, with the rule of the second state first. -/
def Addition.grouped : List Addition :=
  interleaved.filter (·.state = "island") ++ interleaved.filter (·.state = "scan")

/-- Both orders of the calls build the crowded machine, from tables in different orders. -/
theorem Machine.interleaved_and_grouped_build_crowded :
    let heading : Document := { Document.crowded with transitions := [] }
    let built := heading.addRules Addition.interleaved
    let regrouped := heading.addRules Addition.grouped
    heading.transitions = [] ∧
      (∀ name, Addition.rulesFor name Addition.interleaved =
        Addition.rulesFor name Addition.grouped) ∧
      Table.keys built.transitions = ["scan", "island"] ∧
      Table.keys regrouped.transitions = ["island", "scan"] ∧
      Machine.ofDocument built = .ok .crowded ∧ Machine.ofDocument regrouped = .ok .crowded := by
  intro heading built regrouped
  have same : ∀ name, Addition.rulesFor name Addition.interleaved =
      Addition.rulesFor name Addition.grouped := by
    intro name
    by_cases scan : name = "scan"
    · subst scan
      rfl
    · by_cases island : name = "island"
      · subst island
        rfl
      · simp [Addition.rulesFor, Addition.grouped, Addition.interleaved, Ne.symm scan,
          Ne.symm island]
  have crowded : built = .crowded := by decide
  have compiled : Machine.ofDocument built = .ok .crowded := by
    rw [crowded, Document.ofDocument_crowded]
  obtain ⟨machine, first, second⟩ | ⟨defect, -, refused, -⟩ :=
    (@only_order_within_states_matters heading rfl Addition.interleaved).1 Addition.grouped same
  · obtain rfl : Machine.crowded = machine := Except.ok.inj (compiled.symm.trans first)
    exact ⟨rfl, same, by rw [crowded]; rfl, by decide, first, second⟩
  · rw [compiled] at refused
    cases refused

end TapeMachine
