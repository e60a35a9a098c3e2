import TapeMachine.Catalog
import TapeMachine.Proofs.Checks
import TapeMachine.Proofs.Machine.WellFormed

/-!
# Loading the sources of the catalog

The sources of the catalog are put together from lines. `Listing.compile?` computes with the
characters of a listing only, and `Document.compileJson?` with those of a document, so the machine of
such a source is found by evaluation once its lines are spelled out (`Listing.load_of_compile?`,
`Document.load_of_compileJson?`).
-/

namespace TapeMachine

namespace Text

/-- A text of two parts is spelled as its parts are. -/
theorem append_eq_ofList {first second : String} {chars others : List Char}
    (spelledFirst : first = String.ofList chars) (spelledSecond : second = String.ofList others) :
    first ++ second = String.ofList (chars ++ others) := by
  rw [spelledFirst, spelledSecond, String.ofList_append]

/-- A character takes at most four octets. -/
theorem utf8ByteSize_ofList_le (chars : List Char) :
    (String.ofList chars).utf8ByteSize ≤ 4 * chars.length := by
  induction chars with
  | nil => simp
  | cons c chars ih =>
      have atMost := c.utf8Size_le_four
      rw [String.ofList_cons, String.utf8ByteSize_append, String.utf8ByteSize_singleton,
        List.length_cons]
      omega

end Text

/-- A source whose document compiles is loaded as a well-formed machine. -/
theorem Format.load_of_readDocument {format : Format} {source : String} {chars : List Char}
    {document : Document} {machine : Machine} (spelled : source = String.ofList chars)
    (small : 4 * chars.length ≤ maxSourceSize)
    (read : format.readDocument (String.ofList chars) = .ok document)
    (accepted : Machine.ofDocument document = .ok machine) :
    format.load source = .ok machine ∧ machine.WellFormed := by
  have size := Text.utf8ByteSize_ofList_le chars
  refine ⟨?_, Machine.wellFormed_of_ofDocument accepted⟩
  rw [spelled, Format.load, if_neg (by omega), Format.read, read]
  simp [Except.mapError, accepted, bind, Except.bind]

/-- The machine of a listing, if it has one. -/
def Listing.compile? (chars : List Char) : Option Machine := do
  let program ← (parse chars).toOption
  let document ← program.toDocument.toOption
  (Machine.ofDocument document).toOption

/-- A listing that compiles is loaded as a well-formed machine. -/
theorem Listing.load_of_compile? {source : String} {chars : List Char} {machine : Machine}
    (spelled : source = String.ofList chars) (small : 4 * chars.length ≤ maxSourceSize)
    (compiled : compile? chars = some machine) :
    Format.listing.load source = .ok machine ∧ machine.WellFormed := by
  obtain ⟨program, parsed, rest⟩ := Option.bind_eq_some_iff.mp compiled
  obtain ⟨document, meant, accepted⟩ := Option.bind_eq_some_iff.mp rest
  have parsed := Checks.toOption_eq_some.mp parsed
  have meant := Checks.toOption_eq_some.mp meant
  have read : Listing.read (String.ofList chars) = .ok document := by
    simp [Listing.read, parsed, meant]
  refine Format.load_of_readDocument spelled small ?_ (Checks.toOption_eq_some.mp accepted)
  rw [Format.readDocument, read]
  rfl

/-- The machine of a JSON text, if it has one. -/
def Document.compileJson? (chars : List Char) : Option Machine := do
  let (document, rest) ← (reader chars.length chars).toOption
  if Json.skipSpace rest = [] then (Machine.ofDocument document).toOption else none

/-- A JSON text that compiles is loaded as a well-formed machine. -/
theorem Document.load_of_compileJson? {source : String} {chars : List Char} {machine : Machine}
    (spelled : source = String.ofList chars) (small : 4 * chars.length ≤ maxSourceSize)
    (compiled : compileJson? chars = some machine) :
    Format.json.load source = .ok machine ∧ machine.WellFormed := by
  obtain ⟨⟨document, rest⟩, taken, complete⟩ := Option.bind_eq_some_iff.mp compiled
  obtain ⟨space, accepted⟩ := Option.ite_none_right_eq_some.mp complete
  have taken := Checks.toOption_eq_some.mp taken
  have read : Document.ofJson (String.ofList chars) = .ok document := by
    rw [Document.ofJson, Json.readText, String.toList_ofList]
    simp [taken, space]
  refine Format.load_of_readDocument spelled small ?_ (Checks.toOption_eq_some.mp accepted)
  rw [Format.readDocument, read]
  rfl

/-- A source of the catalog that loads is an entry of the catalog. -/
theorem Catalog.mem_entries_of_load {source : CatalogSource} {machine : Machine}
    (listed : source ∈ Catalog.sources) (loaded : source.format.load source.source = .ok machine) :
    { source with machine } ∈ Catalog.entries := by
  refine List.mem_filterMap.mpr ⟨source, listed, ?_⟩
  rw [load?, loaded]

end TapeMachine
