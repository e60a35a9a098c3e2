import Mathlib.Data.List.Forall2
import TapeMachine.Pattern

/-!
# What patterns accept

A pattern accepts symbols component by component, and covers another pattern the same way.
`Pattern.accepts_written` ties the two together: fill the wildcards of a pattern with a symbol that
another pattern never names, and the other pattern accepts the result exactly when it covers the
pattern. A pattern may name every symbol there is, so `Pattern.covers_iff_forall_accepts` does
without such a filler and tells two patterns apart one component at a time: covering is inclusion of
what is accepted, and therefore a partial order.
-/

namespace TapeMachine

namespace PatternSymbol

@[simp]
theorem accepts_any (symbol : Char) : any.accepts symbol = true := rfl

@[simp]
theorem accepts_literal (expected symbol : Char) :
    (literal expected).accepts symbol = true ↔ expected = symbol :=
  beq_iff_eq

/-- What a component accepts is accepted by every component that covers it. -/
theorem accepts_of_covers {mine theirs : PatternSymbol} {symbol : Char}
    (covers : mine.covers theirs) (accepted : theirs.accepts symbol) : mine.accepts symbol := by
  cases mine with
  | any => rfl
  | literal expected =>
      cases theirs with
      | any => simp [PatternSymbol.covers] at covers
      | literal found =>
          obtain rfl : expected = found := by simpa [PatternSymbol.covers] using covers
          exact accepted

/-- A component that does not name `filler` accepts what another component is written as exactly
when it covers that component. -/
theorem accepts_written {mine theirs : PatternSymbol} {filler : Char}
    (unnamed : mine ≠ literal filler) :
    mine.accepts (theirs.written filler) ↔ mine.covers theirs := by
  cases mine with
  | any => simp [PatternSymbol.covers]
  | literal expected =>
      cases theirs with
      | any =>
          have other : expected ≠ filler := fun same => unnamed (congrArg literal same)
          simpa [PatternSymbol.written, PatternSymbol.covers] using other
      | literal found => simp [PatternSymbol.written, PatternSymbol.covers]

/-- A component accepts what it is written as, whatever stands for the wildcard. -/
theorem accepts_written_self (component : PatternSymbol) (filler : Char) :
    component.accepts (component.written filler) := by
  cases component with
  | any => rfl
  | literal symbol => simp [PatternSymbol.written]

/-- A component covers another one exactly if it accepts every symbol that the other accepts. -/
theorem covers_iff_forall_accepts {mine theirs : PatternSymbol} :
    mine.covers theirs ↔ ∀ symbol, theirs.accepts symbol → mine.accepts symbol := by
  constructor
  · intro covers symbol
    exact accepts_of_covers covers
  · intro included
    obtain ⟨filler, unnamed⟩ : ∃ filler, mine ≠ literal filler := by
      -- Two symbols are enough, since a component names one at most.
      by_cases first : mine = literal '0'
      · exact ⟨'1', by simp [first]⟩
      · exact ⟨'0', first⟩
    rw [← accepts_written unnamed]
    exact included _ (accepts_written_self theirs filler)

theorem covers_antisymm {mine theirs : PatternSymbol} (covers : mine.covers theirs)
    (covered : theirs.covers mine) : mine = theirs := by
  cases mine <;> cases theirs <;> simp_all [PatternSymbol.covers]

end PatternSymbol

namespace Pattern

variable {pattern other : Pattern} {symbols : List Char}

/-- A pattern accepts symbols component by component. -/
theorem accepts_iff :
    pattern.accepts symbols ↔
      List.Forall₂ (fun component symbol => component.accepts symbol = true) pattern symbols := by
  induction pattern generalizing symbols with
  | nil => cases symbols <;> simp [accepts]
  | cons component pattern ih => cases symbols <;> simp [accepts, ih]

/-- A pattern covers another component by component. -/
theorem covers_iff :
    pattern.covers other ↔
      List.Forall₂ (fun mine theirs => mine.covers theirs = true) pattern other := by
  induction pattern generalizing other with
  | nil => cases other <;> simp [covers]
  | cons mine pattern ih => cases other <;> simp [covers, ih]

/-! ## Patterns without wildcard -/

@[simp]
theorem literals?_nil : literals? [] = some [] := rfl

@[simp]
theorem literals?_cons_any (pattern : Pattern) : literals? (.any :: pattern) = none := rfl

@[simp]
theorem literals?_cons_literal (symbol : Char) (pattern : Pattern) :
    literals? (.literal symbol :: pattern) = (literals? pattern).map (symbol :: ·) := by
  simp only [literals?, List.mapM_cons, PatternSymbol.literal?]
  cases List.mapM PatternSymbol.literal? pattern <;> rfl

/-- A pattern without wildcard consists of its symbols. -/
theorem literals?_eq_some :
    pattern.literals? = some symbols ↔ pattern = symbols.map PatternSymbol.literal := by
  induction pattern generalizing symbols with
  | nil => cases symbols <;> simp
  | cons component pattern ih =>
      cases component with
      | any => cases symbols <;> simp
      | literal symbol =>
          cases symbols with
          | nil => simp
          | cons first symbols =>
              simp only [literals?_cons_literal, Option.map_eq_some_iff, ih, List.map_cons,
                List.cons.injEq, PatternSymbol.literal.injEq]
              grind

/-- A pattern is not literal exactly when it has a wildcard. -/
theorem literals?_isNone : pattern.literals?.isNone ↔ PatternSymbol.any ∈ pattern := by
  induction pattern with
  | nil => simp
  | cons component pattern ih =>
      cases component with
      | any => simp
      | literal symbol => simpa using ih

theorem exists_literals? (literal : PatternSymbol.any ∉ pattern) :
    ∃ symbols, pattern.literals? = some symbols := by
  rw [← Option.isSome_iff_exists, ← Option.not_isNone, Bool.not_eq_true', Bool.eq_false_iff, ne_eq,
    literals?_isNone]
  exact literal

/-! ## Covering and accepting -/

theorem covers_refl (pattern : Pattern) : pattern.covers pattern := by
  rw [covers_iff, List.forall₂_same]
  intro component _
  cases component <;> simp [PatternSymbol.covers]

/-- What a pattern accepts is accepted by every pattern that covers it. -/
theorem accepts_of_covers (covers : pattern.covers other) (accepted : other.accepts symbols) :
    pattern.accepts symbols := by
  rw [covers_iff] at covers
  rw [accepts_iff] at accepted ⊢
  induction covers generalizing symbols with
  | nil => exact accepted
  | cons first _ ih =>
      cases accepted with
      | cons head tail => exact .cons (PatternSymbol.accepts_of_covers first head) (ih tail)

/-- A pattern that does not name `filler` accepts another pattern whose wildcards are filled with
it exactly when it covers that pattern. -/
theorem accepts_written {filler : Char} (unnamed : PatternSymbol.literal filler ∉ pattern) :
    pattern.accepts (other.written filler) ↔ pattern.covers other := by
  rw [accepts_iff, covers_iff, written, List.forall₂_map_right_iff]
  induction pattern generalizing other with
  | nil => cases other <;> simp
  | cons mine pattern ih =>
      obtain ⟨first, rest⟩ : mine ≠ .literal filler ∧ .literal filler ∉ pattern := by
        simpa [eq_comm] using unnamed
      cases other with
      | nil => simp
      | cons theirs other =>
          rw [List.forall₂_cons, List.forall₂_cons, PatternSymbol.accepts_written first, ih rest]

/-- A pattern accepts what it is written as, whatever stands for its wildcards. -/
theorem accepts_written_self (pattern : Pattern) (filler : Char) :
    pattern.accepts (pattern.written filler) := by
  rw [accepts_iff, written, List.forall₂_map_right_iff, List.forall₂_same]
  intro component _
  exact component.accepts_written_self filler

/-- A pattern covers another one exactly if it accepts all that the other accepts. -/
theorem covers_iff_forall_accepts :
    pattern.covers other ↔ ∀ symbols, other.accepts symbols → pattern.accepts symbols := by
  constructor
  · intro covers symbols
    exact accepts_of_covers covers
  · intro included
    induction pattern generalizing other with
    | nil =>
        cases other with
        | nil => rfl
        | cons theirs other =>
            have accepted := included _ (accepts_written_self (theirs :: other) ' ')
            simp [written, accepts] at accepted
    | cons mine pattern ih =>
        cases other with
        | nil => exact absurd (included [] rfl) (by simp [accepts])
        | cons theirs other =>
            -- What one component accepts is completed by what the others are written as.
            have first : mine.covers theirs := by
              rw [PatternSymbol.covers_iff_forall_accepts]
              intro symbol accepted
              have whole := included (symbol :: written other ' ')
              simp only [accepts, Bool.and_eq_true] at whole
              exact (whole ⟨accepted, accepts_written_self other ' '⟩).1
            have rest : covers pattern other := by
              refine ih fun symbols accepted => ?_
              have whole := included (theirs.written ' ' :: symbols)
              simp only [accepts, Bool.and_eq_true] at whole
              exact (whole ⟨theirs.accepts_written_self ' ', accepted⟩).2
            simp [covers, first, rest]

theorem covers_trans {third : Pattern} (first : pattern.covers other)
    (second : other.covers third) : pattern.covers third := by
  rw [covers_iff_forall_accepts] at first second ⊢
  intro symbols accepted
  exact first symbols (second symbols accepted)

theorem covers_antisymm (covers : pattern.covers other) (covered : other.covers pattern) :
    pattern = other := by
  rw [covers_iff] at covers covered
  induction covers with
  | nil => rfl
  | cons first _ ih =>
      cases covered with
      | cons back rest => rw [PatternSymbol.covers_antisymm first back, ih rest]

/-- A pattern with a wildcard is covered by patterns with a wildcard only. -/
theorem any_mem_of_covers (covers : pattern.covers other)
    (wildcard : PatternSymbol.any ∈ other) : PatternSymbol.any ∈ pattern := by
  rw [covers_iff] at covers
  induction covers with
  | nil => exact wildcard
  | @cons mine theirs pattern other first _ ih =>
      rcases List.mem_cons.mp wildcard with rfl | later
      · cases mine with
        | any => simp
        | literal symbol => simp [PatternSymbol.covers] at first
      · exact List.mem_cons_of_mem _ (ih later)

/-- Covering is inclusion of what is accepted, for patterns of any lengths, so it is a partial
order. -/
theorem covering_is_inclusion :
    (∀ pattern other : Pattern,
      pattern.covers other ↔ ∀ symbols, other.accepts symbols → pattern.accepts symbols) ∧
    (∀ pattern : Pattern, pattern.covers pattern) ∧
    (∀ first second third : Pattern,
      first.covers second → second.covers third → first.covers third) ∧
    ∀ pattern other : Pattern, pattern.covers other → other.covers pattern → pattern = other :=
  ⟨fun _ _ => covers_iff_forall_accepts, covers_refl, fun _ _ _ => covers_trans,
    fun _ _ => covers_antisymm⟩

end Pattern

end TapeMachine
