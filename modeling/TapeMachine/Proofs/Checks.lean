import Mathlib.Data.List.Forall2

/-!
# Chains of checks

A check gives a value or refuses. These lemmas say when a chain of checks gives a value: when each
of its links does. They are the only facts about refusals that the theory of documents and of
their readers needs.
-/

namespace TapeMachine.Checks

variable {ε δ α β : Type}

/-- A chain gives a value exactly when its first check does and the remaining chain accepts it. -/
@[simp]
theorem bind_eq_ok {check : Except ε α} {next : α → Except ε β} {result : β} :
    check >>= next = .ok result ↔ ∃ value, check = .ok value ∧ next value = .ok result := by
  cases check with
  | error refusal => simp [bind, Except.bind]
  | ok value => simp [bind, Except.bind]

/-- A value that is given without a check is that value. -/
@[simp]
theorem pure_eq_ok {value result : α} :
    (pure value : Except ε α) = .ok result ↔ value = result := by
  simp [pure, Except.pure]

/-- Converting a value does not change whether there is one. -/
@[simp]
theorem map_eq_ok {check : Except ε α} {convert : α → β} {result : β} :
    convert <$> check = .ok result ↔ ∃ value, check = .ok value ∧ convert value = result := by
  cases check <;> simp [Functor.map, Except.map]

/-- Rewording a refusal does not change when a check gives a value. -/
@[simp]
theorem mapError_eq_ok {check : Except ε α} {reword : ε → δ} {result : α} :
    check.mapError reword = .ok result ↔ check = .ok result := by
  cases check <;> simp [Except.mapError]

/-- A check without its refusals keeps its value. -/
@[simp]
theorem toOption_eq_some {check : Except ε α} {result : α} :
    check.toOption = some result ↔ check = .ok result := by
  cases check <;> simp [Except.toOption]

/-- A check without its refusals has no value where it refused. -/
@[simp]
theorem toOption_eq_none {check : Except ε α} :
    check.toOption = none ↔ ∃ refusal, check = .error refusal := by
  cases check <;> simp [Except.toOption]

/-- Without its refusals, a chain of checks is a chain of optional values. -/
theorem toOption_bind {check : Except ε α} {next : α → Except ε β} :
    (check >>= next).toOption = check.toOption.bind fun value => (next value).toOption := by
  cases check <;> rfl

/-- A check of every item gives the values of the items in order. -/
theorem mapM_eq_ok {check : α → Except ε β} {items : List α} {results : List β} :
    items.mapM check = .ok results ↔
      List.Forall₂ (fun item result => check item = .ok result) items results := by
  induction items generalizing results with
  | nil => cases results <;> simp
  | cons item items ih =>
      rw [List.mapM_cons]
      cases results with
      | nil => simp
      | cons result results =>
          simp only [bind_eq_ok, pure_eq_ok, List.cons.injEq, ih, List.forall₂_cons]
          constructor
          · rintro ⟨_, first, _, others, rfl, rfl⟩
            exact ⟨first, others⟩
          · rintro ⟨first, others⟩
            exact ⟨_, first, _, others, rfl, rfl⟩

/-- Where checking undoes writing, a check of every item gives the values whose written forms the
items are. -/
theorem mapM_eq_ok_of_written {check : α → Except ε β} {written : β → α} {allowed : β → Prop}
    {items : List α} {results : List β}
    (law : ∀ item ∈ items, ∀ result,
      check item = .ok result ↔ allowed result ∧ item = written result) :
    items.mapM check = .ok results ↔
      (∀ result ∈ results, allowed result) ∧ items = results.map written := by
  rw [mapM_eq_ok]
  induction items generalizing results with
  | nil => cases results <;> simp
  | cons item items ih =>
      cases results with
      | nil => simp
      | cons result results =>
          rw [List.forall₂_cons, law item (by simp),
            ih fun later member => law later (List.mem_cons_of_mem item member)]
          simp only [List.mem_cons, forall_eq_or_imp, List.map_cons, List.cons.injEq]
          tauto

/-- A check of every item without values accepts exactly when it accepts each item. -/
theorem forM_eq_ok {check : α → Except ε PUnit} {items : List α} :
    items.forM check = .ok () ↔ ∀ item ∈ items, check item = .ok () := by
  induction items with
  | nil => simp
  | cons item items ih =>
      change (check item >>= fun _ => items.forM check) = _ ↔ _
      simp only [bind_eq_ok, ih, List.mem_cons, forall_eq_or_imp]
      constructor
      · rintro ⟨_, first, others⟩
        exact ⟨first, others⟩
      · rintro ⟨first, others⟩
        exact ⟨_, first, others⟩

/-- A relation between lists can be completed on the right exactly when each item on the left has a
partner. -/
theorem exists_forall₂ {related : α → β → Prop} {items : List α} :
    (∃ results, List.Forall₂ related items results) ↔
      ∀ item ∈ items, ∃ result, related item result := by
  induction items with
  | nil => simp
  | cons item items ih =>
      rw [List.forall_mem_cons, ← ih]
      constructor
      · rintro ⟨_, pairs⟩
        obtain ⟨result, results, pair, others, rfl⟩ := List.forall₂_cons_left_iff.mp pairs
        exact ⟨⟨result, pair⟩, ⟨results, others⟩⟩
      · rintro ⟨⟨result, pair⟩, ⟨results, others⟩⟩
        exact ⟨result :: results, .cons pair others⟩

/-- A check of every item gives values exactly when it gives one for each item. -/
theorem exists_mapM_eq_ok {check : α → Except ε β} {items : List α} :
    (∃ results, items.mapM check = .ok results) ↔
      ∀ item ∈ items, ∃ result, check item = .ok result := by
  simp only [mapM_eq_ok, exists_forall₂]

/-- Items that are the written forms of results are the results, written. -/
theorem map_eq_of_forall₂ {items : List α} {results : List β} {written : β → α}
    (same : List.Forall₂ (fun item result => item = written result) items results) :
    results.map written = items := by
  induction same with
  | nil => rfl
  | cons head _ ih => rw [List.map_cons, ih, head]

/-- Lists that look alike through one pair of views look alike through another that agrees wherever
the first pair does. -/
theorem map_eq_map_of_views {γ : Type} {items : List α} {others : List β} {left : α → δ}
    {right : β → δ} {first : α → γ} {second : β → γ} (same : items.map left = others.map right)
    (agree : ∀ item ∈ items, ∀ other ∈ others, left item = right other →
      first item = second other) : items.map first = others.map second := by
  induction items generalizing others with
  | nil =>
      obtain rfl : others = [] := by simpa using same.symm
      rfl
  | cons item items ih =>
      cases others with
      | nil => cases same
      | cons other others =>
          obtain ⟨head, tail⟩ := List.cons.inj same
          have later := ih tail fun item listed other otherListed =>
            agree item (List.mem_cons_of_mem _ listed) other (List.mem_cons_of_mem _ otherListed)
          rw [List.map_cons, List.map_cons, later,
            agree item List.mem_cons_self other List.mem_cons_self head]

/-- What stands on the right of a relation between lists has a partner at the same position on the
left. -/
theorem exists_getElem?_of_forall₂ {related : α → β → Prop} {items : List α} {results : List β}
    (pairs : List.Forall₂ related items results) {index : Nat} {result : β}
    (position : results[index]? = some result) :
    ∃ item, items[index]? = some item ∧ related item result := by
  induction pairs generalizing index with
  | nil => simp at position
  | cons pair _ ih =>
      cases index with
      | zero =>
          obtain rfl : _ = result := by simpa using position
          exact ⟨_, rfl, pair⟩
      | succ index => exact ih (by simpa using position)

/-- Each result has a partner among the items. -/
theorem exists_mem_of_forall₂ {related : α → β → Prop} {items : List α} {results : List β}
    (pairs : List.Forall₂ related items results) {result : β} (member : result ∈ results) :
    ∃ item ∈ items, related item result := by
  obtain ⟨index, position⟩ := List.mem_iff_getElem?.mp member
  obtain ⟨item, partner, pair⟩ := exists_getElem?_of_forall₂ pairs position
  exact ⟨item, List.mem_of_getElem? partner, pair⟩

/-- Conditions that agree on related items relate the two lists to the same partners. -/
theorem forall₂_iff_of_forall₂ {related : α → β → Prop} {items : List α} {results : List β}
    (pairs : List.Forall₂ related items results) {left : α → δ → Prop} {right : β → δ → Prop}
    (alike : ∀ item result partner, related item result →
      (left item partner ↔ right result partner))
    {partners : List δ} :
    List.Forall₂ left items partners ↔ List.Forall₂ right results partners := by
  induction pairs generalizing partners with
  | nil => simp
  | cons pair _ ih =>
      cases partners with
      | nil => simp
      | cons partner partners =>
          rw [List.forall₂_cons, List.forall₂_cons, alike _ _ _ pair, @ih partners]

/-- Related lists are searched alike by conditions that agree on related items. -/
theorem rel_find? {related : α → β → Prop} {items : List α} {results : List β}
    (pairs : List.Forall₂ related items results) {left : α → Bool} {right : β → Bool}
    (alike : ∀ item result, related item result → left item = right result) :
    Option.Rel related (items.find? left) (results.find? right) := by
  induction pairs with
  | nil => exact .none
  | @cons item result _ _ pair _ ih =>
      rw [List.find?_cons, List.find?_cons, alike item result pair]
      cases right result with
      | true => exact .some pair
      | false => exact ih

/-- Alternatives are related as their parts are. -/
theorem rel_or {related : α → β → Prop} {first second : Option α} {left right : Option β}
    (firstPair : Option.Rel related first left) (secondPair : Option.Rel related second right) :
    Option.Rel related (first.or second) (left.or right) := by
  cases firstPair with
  | some pair => exact .some pair
  | none => exact secondPair

/-! ## Reasons for refusals -/

/-- Whenever the check refuses, it does so for one of the given reasons. -/
def RefusesOnly (check : Except ε α) (reasons : ε → Prop) : Prop :=
  ∀ refusal, check = .error refusal → reasons refusal

variable {reasons : ε → Prop} {check : Except ε α}

/-- A check that gives a value does not refuse. -/
theorem refusesOnly_ok (value : α) : RefusesOnly (.ok value) reasons := by
  rintro refusal ⟨⟩

/-- A refusal is its own reason. -/
theorem refusesOnly_error {refusal : ε} (allowed : reasons refusal) :
    RefusesOnly (.error refusal : Except ε α) reasons := by
  rintro _ ⟨⟩
  exact allowed

/-- Reasons may be replaced by weaker ones. -/
theorem RefusesOnly.imp {others : ε → Prop} (only : RefusesOnly check reasons)
    (allowed : ∀ refusal, reasons refusal → others refusal) : RefusesOnly check others :=
  fun refusal refused => allowed refusal (only refusal refused)

/-- A chain refuses for the reasons of its links. -/
theorem RefusesOnly.bind (only : RefusesOnly check reasons) {next : α → Except ε β}
    (later : ∀ value, check = .ok value → RefusesOnly (next value) reasons) :
    RefusesOnly (check >>= next) reasons := by
  cases check with
  | error refusal => exact refusesOnly_error (only refusal rfl)
  | ok value => exact later value rfl

/-- A check of every item refuses for the reasons of the checks of the items. -/
theorem refusesOnly_mapM {check : α → Except ε β} {items : List α}
    (only : ∀ item ∈ items, RefusesOnly (check item) reasons) :
    RefusesOnly (items.mapM check) reasons := by
  induction items with
  | nil => exact refusesOnly_ok []
  | cons item items ih =>
      rw [List.mapM_cons]
      exact (only item List.mem_cons_self).bind fun result _ =>
        (ih fun later member => only later (List.mem_cons_of_mem item member)).bind
          fun results _ => refusesOnly_ok (result :: results)

/-- The same holds of checks without values. -/
theorem refusesOnly_forM {check : α → Except ε PUnit} {items : List α}
    (only : ∀ item ∈ items, RefusesOnly (check item) reasons) :
    RefusesOnly (items.forM check) reasons := by
  induction items with
  | nil => exact refusesOnly_ok ()
  | cons item items ih =>
      exact (only item List.mem_cons_self).bind fun _ _ =>
        ih fun later member => only later (List.mem_cons_of_mem item member)

end TapeMachine.Checks
