import TapeMachine.Load
import TapeMachine.Proofs.Listing.Printed
import TapeMachine.Proofs.Listing.Shape

/-!
# Which machines survive their listing

A machine is read back from its listing exactly when a listing can hold its names. What is read back
agrees with the machine in everything but the summary, which listings do not have, and the token for
kept cells, for which they use the wildcard. No symbol is an obstacle, whichever character it is.
-/

namespace TapeMachine

open Checks

theorem Format.encode_listing (machine : Machine) :
    Format.listing.encode machine = Listing.write machine :=
  rfl

namespace Machine

variable {machine reloaded : Machine}

/-- Two machines with the same name, alphabets, tapes and states, with the same rules in the same
order. Summaries and tokens for kept cells may differ. -/
structure AgreesWith (machine other : Machine) : Prop where
  name : machine.name = other.name
  states : machine.states = other.states
  inputAlphabet : machine.inputAlphabet = other.inputAlphabet
  tapeAlphabet : machine.tapeAlphabet = other.tapeAlphabet
  tapeCount : machine.tapeCount = other.tapeCount
  blank : machine.blank = other.blank
  wildcard : machine.wildcard = other.wildcard
  initial : machine.initial = other.initial

/-- A machine agrees with what its listing keeps. -/
theorem listed_agreesWith (machine : Machine) : machine.listed.AgreesWith machine :=
  ⟨rfl, rfl, rfl, rfl, rfl, rfl, rfl, rfl⟩

/-- A machine with names that a listing can hold is read back from its listing. -/
theorem Listable.read_encode (listable : machine.Listable) (wellFormed : machine.WellFormed)
    (fits : machine.tapeCount < Text.wordLimit) :
    Format.listing.read (Format.listing.encode machine) = .ok machine.listed := by
  have read := listable.read_write wellFormed fits
  have compiled := wellFormed.listed.ofDocument_writtenWith wellFormed.listedEntries_sublist
    fun entry member nonempty => mem_listedEntries member nonempty
  rw [Format.encode_listing, Format.read_listing_eq_ok]
  exact ⟨_, read, compiled⟩

/-- Every machine that is read from a listing has names that a listing can hold. -/
theorem listable_of_read {source : String} (accepted : Format.listing.read source = .ok machine) :
    machine.Listable ∧ machine.summary = "" ∧ machine.unchanged = machine.wildcard := by
  obtain ⟨document, read, compiled⟩ := Format.read_listing_eq_ok.mp accepted
  have plain := Listing.plainDocument_of_read read
  obtain ⟨signature, initial, tables, -, spelled, -, -, -, rfl⟩ := ofDocument_eq_ok.mp compiled
  have names : (Machine.compiled document signature initial tables).stateNames =
      document.states := by
    have same := congrArg Signature.states (@signature_compiled _ _ initial tables spelled)
    exact same.trans spelled.states.symm
  refine ⟨⟨?_, plain.trimmed, plain.name⟩, plain.description, ?_⟩
  · rw [names]
    exact fun state member => (plain.states state member).2
  · have unchanged := plain.unchanged
    rw [spelled.unchanged, spelled.wildcard] at unchanged
    change signature.unchanged = signature.wildcard
    simpa using congrArg String.toList unchanged

/-- Machines that agree have the same names to list. -/
theorem Listable.of_agreesWith (listable : reloaded.Listable)
    (agrees : reloaded.AgreesWith machine) : machine.Listable := by
  obtain ⟨states, trimmed, name⟩ := listable
  refine ⟨?_, ?_, ?_⟩
  · rwa [stateNames, agrees.states] at states
  · rwa [agrees.name] at trimmed
  · rwa [agrees.name] at name

end Machine

/-- A compiled machine is restored from its listing if and only if its state names consist of
letters, digits, underscores, hyphens and points, and its name is trimmed and has no line end and no
comment mark. What is read from a listing never has a summary, and uses the wildcard for kept
cells. -/
theorem listing_restores_machine_iff_listable {document : Document} {machine : Machine}
    (fits : document.tapeCount < Text.wordLimit)
    (accepted : Machine.ofDocument document = .ok machine) :
    ((∃ reloaded, Format.listing.read (Format.listing.encode machine) = .ok reloaded ∧
        reloaded.AgreesWith machine) ↔
      (∀ name ∈ machine.stateNames, ∀ c ∈ name.toList, Listing.NameChar c) ∧
        Text.trim machine.name.toList = machine.name.toList ∧
        ∀ c ∈ machine.name.toList, c ≠ '\n' ∧ c ≠ '\r' ∧ c ≠ '#') ∧
    ∀ reloaded, Format.listing.read (Format.listing.encode machine) = .ok reloaded →
      reloaded.summary = "" ∧ reloaded.unchanged = reloaded.wildcard := by
  have wellFormed := Machine.wellFormed_of_ofDocument accepted
  rw [← Machine.tapeCount_of_ofDocument accepted] at fits
  refine ⟨⟨?_, ?_⟩, fun reloaded read => (Machine.listable_of_read read).2⟩
  · rintro ⟨reloaded, read, agrees⟩
    obtain ⟨states, trimmed, name⟩ := (Machine.listable_of_read read).1.of_agreesWith agrees
    exact ⟨states, trimmed, name⟩
  · rintro ⟨states, trimmed, name⟩
    have listable : machine.Listable := ⟨states, trimmed, name⟩
    exact ⟨machine.listed, listable.read_encode wellFormed fits, machine.listed_agreesWith⟩

/-- A machine whose symbols are a space, a comment mark, a quote and a line feed survives its
listing. -/
theorem listing_restores_awkward :
    Document.awkward.tapeCount < Text.wordLimit ∧ Machine.ofDocument .awkward = .ok .awkward ∧
      ∃ reloaded, Format.listing.read (Format.listing.encode .awkward) = .ok reloaded ∧
        reloaded.AgreesWith .awkward :=
  ⟨by decide, Document.ofDocument_awkward,
    (listing_restores_machine_iff_listable (by decide) Document.ofDocument_awkward).1.mpr
      ⟨by simp [Machine.stateNames, Machine.awkward, Listing.NameChar], by decide,
        by simp [Machine.awkward]⟩⟩

end TapeMachine
