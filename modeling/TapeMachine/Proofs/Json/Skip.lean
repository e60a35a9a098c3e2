import TapeMachine.Json.Reader
import TapeMachine.Proofs.Checks
import TapeMachine.Proofs.Json.Numbers
import TapeMachine.Proofs.Json.Spelling

/-!
# Every value can be skipped

A value that nobody asked for is skipped, whatever it is. The reader keeps the open brackets in a
list of frames, so the statement is about any frames around the value: once the value is skipped,
the reader goes on as it does behind a value (`resume`).
-/

namespace TapeMachine.Json

variable {text form : List Char} {rest : List Char}

/-! ## White space -/

/-- All characters of space are white space. -/
theorem isSpace_of_mem_space {before : List Char} (isBefore : before ∈ Form.space) :
    ∀ c ∈ before, isSpace c := by
  have known : ∀ c ∈ [' ', '\n', '\t', '\r'], isSpace c := by simp [isSpace]
  exact fun c inside => known c (isBefore c inside)

/-- Space is skipped together with the space that follows it. -/
theorem skipSpace_space_append {before : List Char} (isBefore : before ∈ Form.space)
    (text : List Char) : skipSpace (before ++ text) = skipSpace text :=
  List.dropWhile_append_of_pos (isSpace_of_mem_space isBefore)

/-- Nothing is skipped before a token. -/
theorem skipSpace_cons {c : Char} (token : isSpace c = false) (text : List Char) :
    skipSpace (c :: text) = c :: text :=
  List.dropWhile_cons_of_neg (by simp [token])

/-- A number may end before any character that cannot continue it. -/
theorem delimited_cons {c : Char}
    (separate : c.isDigit = false ∧ c ≠ '.' ∧ isExponentMark c = false) (rest : List Char) :
    Delimited (c :: rest) := by
  rintro other ⟨⟩
  exact separate

/-- White space before a delimiter delimits too. -/
theorem Delimited.space_append {before : List Char} (isBefore : before ∈ Form.space)
    (delimited : Delimited rest) : Delimited (before ++ rest) := by
  have known : ∀ c ∈ [' ', '\n', '\t', '\r'],
      c.isDigit = false ∧ c ≠ '.' ∧ isExponentMark c = false := by
    simp only [List.forall_mem_cons, List.not_mem_nil, false_implies, implies_true, and_true]
    decide
  cases before with
  | nil => exact delimited
  | cons c before => exact delimited_cons (known c (isBefore c List.mem_cons_self)) _

/-- What stands behind an item of a bracket continues no number. -/
theorem delimited_rest {close : Char} {items : List (List Char)}
    (closes : close = ']' ∨ close = '\x7d') (listed : text ∈ Form.rest close items)
    (rest : List Char) : Delimited (text ++ rest) := by
  cases items with
  | nil =>
      obtain ⟨before, isBefore, rfl⟩ := Form.mem_rest_nil.mp listed
      rw [List.append_assoc]
      refine Delimited.space_append isBefore (delimited_cons ?_ rest)
      rcases closes with rfl | rfl <;> decide
  | cons item items =>
      obtain ⟨before, isBefore, behind, -, later, -, rfl⟩ := Form.mem_rest_cons.mp listed
      rw [List.append_assoc]
      exact Delimited.space_append isBefore (delimited_cons (by decide) _)

/-- A character that starts a value. -/
def opensValue (c : Char) : Bool :=
  !isSpace c && c != ']' && c != '\x7d' && c != ','

/-- A digit opens a value. -/
theorem opensValue_of_isDigit {c : Char} (digit : c.isDigit) : opensValue c := by
  have other : ∀ d : Char, d.isDigit = false → c ≠ d := by
    rintro d negative rfl
    rw [digit] at negative
    exact absurd negative (by decide)
  simp [opensValue, isSpace, other]

/-- The text starts like a value. -/
def Opens (text : List Char) : Prop :=
  ∃ c others, text = c :: others ∧ opensValue c

/-- Nothing is skipped before a value. -/
theorem Opens.skipSpace_append (opens : Opens text) (rest : List Char) :
    skipSpace (text ++ rest) = text ++ rest := by
  obtain ⟨c, others, rfl, opens⟩ := opens
  simp only [opensValue, Bool.and_eq_true, Bool.not_eq_true'] at opens
  exact skipSpace_cons opens.1.1.1 _

/-- Space before a value is skipped. -/
theorem Opens.skipSpace_eq (opens : Opens text) {before : List Char}
    (isBefore : before ∈ Form.space) (rest : List Char) :
    skipSpace (before ++ (text ++ rest)) = text ++ rest := by
  rw [skipSpace_space_append isBefore, opens.skipSpace_append]

/-! ## Brackets -/

section Brackets

variable {opening close : Char} {item : List Char} {items : List (List Char)}

/-- An empty bracket closes behind white space. -/
theorem bracket_nil (listed : text ∈ Form.bracket opening close [])
    (visible : isSpace close = false) :
    ∃ inside, text = opening :: inside ∧ ∀ rest, skipSpace (inside ++ rest) = close :: rest := by
  obtain ⟨before, isBefore, rfl⟩ := Form.mem_bracket_nil.mp listed
  refine ⟨before ++ [close], rfl, fun rest => ?_⟩
  rw [List.append_assoc, skipSpace_space_append isBefore]
  exact skipSpace_cons visible rest

/-- The first item of a bracket stands behind white space. -/
theorem bracket_cons (opens : Opens item)
    (listed : text ∈ Form.bracket opening close (item :: items)) :
    ∃ inside, ∃ later ∈ Form.rest close items, text = opening :: inside ∧
      item.length + later.length ≤ inside.length ∧
      ∀ rest, skipSpace (inside ++ rest) = item ++ (later ++ rest) := by
  obtain ⟨before, isBefore, later, isLater, rfl⟩ := Form.mem_bracket_cons.mp listed
  refine ⟨before ++ (item ++ later), later, isLater, rfl, by simp, fun rest => ?_⟩
  rw [List.append_assoc, List.append_assoc, opens.skipSpace_eq isBefore]

/-- Behind its last item a bracket closes. -/
theorem rest_nil (listed : text ∈ Form.rest close []) (visible : isSpace close = false)
    (rest : List Char) : skipSpace (text ++ rest) = close :: rest := by
  obtain ⟨before, isBefore, rfl⟩ := Form.mem_rest_nil.mp listed
  rw [List.append_assoc, skipSpace_space_append isBefore]
  exact skipSpace_cons visible rest

/-- The next item of a bracket stands behind a comma. -/
theorem rest_cons (opens : Opens item) (listed : text ∈ Form.rest close (item :: items)) :
    ∃ inside, ∃ later ∈ Form.rest close items, item.length + later.length < text.length ∧
      ∀ rest, skipSpace (text ++ rest) = ',' :: (inside ++ rest) ∧
        skipSpace (inside ++ rest) = item ++ (later ++ rest) := by
  obtain ⟨before, isBefore, behind, isBehind, later, isLater, rfl⟩ :=
    Form.mem_rest_cons.mp listed
  refine ⟨behind ++ (item ++ later), later, isLater, by simp; omega, fun rest => ⟨?_, ?_⟩⟩
  · rw [List.append_assoc, skipSpace_space_append isBefore]
    exact skipSpace_cons (by decide) _
  · rw [List.append_assoc, List.append_assoc, opens.skipSpace_eq isBehind]

/-- There are fewer items left than characters. -/
theorem length_lt_of_mem_rest (listed : text ∈ Form.rest close items) :
    items.length < text.length := by
  induction items generalizing text with
  | nil =>
      obtain ⟨before, -, rfl⟩ := Form.mem_rest_nil.mp listed
      simp
  | cons item items ih =>
      obtain ⟨before, -, behind, -, later, isLater, rfl⟩ := Form.mem_rest_cons.mp listed
      have shorter := ih isLater
      simp only [List.length_append, List.length_cons]
      omega

end Brackets

/-! ## Frames -/

/-- The brackets of a frame. -/
def Frame.opening : Frame → Char
  | .list => '['
  | .object => '\x7b'

def Frame.close : Frame → Char
  | .list => ']'
  | .object => '\x7d'

/-- Go on with the next item of the innermost frame. -/
def proceed (fuel : Nat) (frames : List Frame) (text : List Char) : Except Error (List Char) :=
  match frames with
  | [] => .ok text
  | .list :: _ => skipFrames fuel frames text
  | .object :: _ => do skipFrames fuel frames (← skipKey text)

/-- Go on behind a value. -/
def resume (fuel : Nat) (frames : List Frame) (text : List Char) : Except Error (List Char) := do
  let (frames, rest) ← skipClosing true frames text
  proceed fuel frames rest

/-- A value without items is skipped at once. -/
theorem skipFrames_scalar {full : List Char} (opening : skipOpening full = .ok (none, rest))
    (fuel : Nat) (frames : List Frame) :
    skipFrames (fuel + 1) frames full = resume fuel frames rest := by
  rw [skipFrames, opening, resume]
  cases closing : skipClosing true frames rest with
  | error => simp [bind, Except.bind, closing]
  | ok closed =>
      obtain ⟨left, others⟩ := closed
      rcases left with _ | ⟨_ | _, _⟩ <;> simp [bind, Except.bind, closing, proceed]

/-- A value with items is skipped item by item, up to its closing bracket. -/
theorem skipFrames_bracket {full : List Char} {frame : Frame}
    (opening : skipOpening full = .ok (some frame, rest)) (fuel : Nat) (frames : List Frame) :
    skipFrames (fuel + 1) frames full = (do
      let (left, others) ← skipClosing false (frame :: frames) rest
      proceed fuel left others) := by
  rw [skipFrames, opening]
  cases closing : skipClosing false (frame :: frames) rest with
  | error => simp [bind, Except.bind, closing]
  | ok closed =>
      obtain ⟨left, others⟩ := closed
      rcases left with _ | ⟨_ | _, _⟩ <;> simp [bind, Except.bind, closing, proceed]

/-- A bracket is opened by its first character. -/
theorem skipOpening_bracket {full : List Char} {frame : Frame}
    (start : skipSpace full = frame.opening :: rest) :
    skipOpening full = .ok (some frame, rest) := by
  cases frame <;> simp [skipOpening, start, Frame.opening]

/-- A comma leads to the next item. -/
theorem resume_comma {frame : Frame} {outer : List Frame} {full : List Char}
    (start : skipSpace full = ',' :: rest) (fuel : Nat) :
    resume fuel (frame :: outer) full = proceed fuel (frame :: outer) rest := by
  simp [resume, skipClosing, start, bind, Except.bind]

/-- A closing bracket leads out of its frame. -/
theorem skipClosing_close {frame : Frame} {outer : List Frame} {full : List Char}
    (start : skipSpace full = frame.close :: rest) (afterValue : Bool) :
    skipClosing afterValue (frame :: outer) full = skipClosing true outer rest := by
  cases frame <;> simp_all [skipClosing, Frame.close]

/-- After a closing bracket, the value around it goes on. -/
theorem resume_close {frame : Frame} {outer : List Frame} {full : List Char}
    (start : skipSpace full = frame.close :: rest) (fuel : Nat) :
    resume fuel (frame :: outer) full = resume fuel outer rest := by
  rw [resume, skipClosing_close start, resume]

/-- The first item of a frame does not close it. -/
theorem Opens.skipClosing {frame : Frame} {outer : List Frame} {full : List Char}
    (opens : Opens text) (start : skipSpace full = text ++ rest) :
    skipClosing false (frame :: outer) full = .ok (frame :: outer, text ++ rest) := by
  obtain ⟨c, others, rfl, opens⟩ := opens
  simp only [opensValue, Bool.and_eq_true, bne_iff_ne, ne_eq] at opens
  obtain ⟨⟨⟨-, list⟩, object⟩, -⟩ := opens
  simp [Json.skipClosing, start, list, object]

/-! ## Values -/

/-- The text is skipped as a value, inside any frames. -/
def Skips (text : List Char) : Prop :=
  ∃ rounds ≤ text.length, ∀ fuel frames full rest, skipSpace full = text ++ rest →
    Delimited rest → skipFrames (fuel + rounds) frames full = resume fuel frames rest

/-- The text is skipped as an item of a frame. -/
def Passes (frame : Frame) (item : List Char) : Prop :=
  Opens item ∧
    ∃ rounds ≤ item.length, ∀ fuel outer full rest, skipSpace full = item ++ rest →
      Delimited rest → proceed (fuel + rounds) (frame :: outer) full =
        resume fuel (frame :: outer) rest

/-- A frame closes with a bracket or a brace. -/
theorem Frame.close_eq (frame : Frame) : frame.close = ']' ∨ frame.close = '\x7d' := by
  cases frame <;> simp [Frame.close]

/-- A closing bracket is not skipped as space. -/
theorem Frame.isSpace_close (frame : Frame) : isSpace frame.close = false := by
  cases frame <;> rfl

/-- The items of a frame are skipped one after the other, until it is closed. -/
theorem resume_rest {frame : Frame} {items : List (List Char)}
    (passes : ∀ item ∈ items, Passes frame item) (listed : text ∈ Form.rest frame.close items) :
    ∃ rounds ≤ text.length, ∀ fuel outer rest,
      resume (fuel + rounds) (frame :: outer) (text ++ rest) = resume fuel outer rest := by
  induction items generalizing text with
  | nil =>
      have ending := rest_nil listed frame.isSpace_close
      exact ⟨0, Nat.zero_le _, fun fuel outer rest => resume_close (ending rest) fuel⟩
  | cons item items ih =>
      obtain ⟨⟨opens, first, few, skips⟩, passesOthers⟩ := List.forall_mem_cons.mp passes
      obtain ⟨inside, later, isLater, size, starts⟩ := rest_cons opens listed
      obtain ⟨more, bounded, resumes⟩ := ih passesOthers isLater
      refine ⟨more + first, by omega, fun fuel outer rest => ?_⟩
      obtain ⟨comma, start⟩ := starts rest
      rw [resume_comma comma, ← Nat.add_assoc,
        skips _ _ _ _ start (delimited_rest frame.close_eq isLater rest), resumes]

/-- A bracket is skipped if its items are. -/
theorem skips_bracket (frame : Frame) {items : List (List Char)}
    (passes : ∀ item ∈ items, Passes frame item)
    (listed : text ∈ Form.bracket frame.opening frame.close items) : Skips text := by
  cases items with
  | nil =>
      obtain ⟨inside, rfl, ending⟩ := bracket_nil listed frame.isSpace_close
      refine ⟨1, by simp, fun fuel frames full rest start _ => ?_⟩
      rw [List.cons_append] at start
      rw [skipFrames_bracket (skipOpening_bracket start), skipClosing_close (ending rest)]
      rfl
  | cons item items =>
      obtain ⟨⟨opens, first, few, skips⟩, passesOthers⟩ := List.forall_mem_cons.mp passes
      obtain ⟨inside, later, isLater, rfl, size, starts⟩ := bracket_cons opens listed
      obtain ⟨more, bounded, resumes⟩ := resume_rest passesOthers isLater
      refine ⟨more + first + 1, by simp; omega, fun fuel frames full rest start _ => ?_⟩
      rw [List.cons_append] at start
      rw [← Nat.add_assoc, skipFrames_bracket (skipOpening_bracket start),
        opens.skipClosing (starts rest), ← Nat.add_assoc]
      refine (skips _ _ _ _ (opens.skipSpace_append _)
        (delimited_rest frame.close_eq isLater rest)).trans ?_
      exact resumes fuel frames rest

/-- Characters without brackets are skipped if they open no bracket. -/
theorem skips_scalar (nonempty : text ≠ [])
    (opening : ∀ full rest, skipSpace full = text ++ rest → Delimited rest →
      skipOpening full = .ok (none, rest)) : Skips text := by
  refine ⟨1, List.length_pos_iff.mpr nonempty, fun fuel frames full rest start delimited => ?_⟩
  exact skipFrames_scalar (opening full rest start delimited) fuel frames

/-- A string opens a value. -/
theorem opens_string (isString : text ∈ Form.anyString) : Opens text := by
  obtain ⟨body, rfl, -⟩ := skipString_of_mem isString
  exact ⟨'"', body, rfl, by decide⟩

/-- A number starts with its sign or with a digit. -/
theorem exists_cons_of_mem_number (isNumber : text ∈ Form.number) :
    ∃ c others, text = c :: others ∧ (c = '-' ∨ c.isDigit) := by
  obtain ⟨sign, whole, part, isSign, isWhole, -, rfl⟩ := exists_of_mem_number isNumber
  obtain ⟨digit, digits, rfl, all, -⟩ := exists_of_mem_whole isWhole
  rcases isSign with rfl | rfl
  · exact ⟨digit, digits ++ part, rfl, .inr (all digit List.mem_cons_self)⟩
  · exact ⟨'-', digit :: digits ++ part, rfl, .inl rfl⟩

/-- Every value opens one. -/
theorem Form.IsValue.opens (isValue : Form.IsValue text) : Opens text := by
  cases isValue with
  | word isWord =>
      simp only [Form.words, List.mem_cons, List.not_mem_nil, or_false] at isWord
      rcases isWord with rfl | rfl | rfl <;> exact ⟨_, _, rfl, by decide⟩
  | number isNumber =>
      obtain ⟨c, others, rfl, rfl | digit⟩ := exists_cons_of_mem_number isNumber
      · exact ⟨_, _, rfl, by decide⟩
      · exact ⟨_, _, rfl, opensValue_of_isDigit digit⟩
  | string isString => exact opens_string isString
  | array _ listed =>
      obtain ⟨others, rfl⟩ := Form.exists_cons_of_mem_bracket listed
      exact ⟨_, _, rfl, by decide⟩
  | object _ _ listed =>
      obtain ⟨items, -, listed⟩ := listed
      obtain ⟨others, rfl⟩ := Form.exists_cons_of_mem_bracket listed
      exact ⟨_, _, rfl, by decide⟩

/-- What is skipped as a value is passed as an item. -/
theorem Skips.passes (skips : Skips text) (opens : Opens text) : Passes .list text := by
  obtain ⟨rounds, few, skips⟩ := skips
  exact ⟨opens, rounds, few, fun fuel outer => skips fuel (.list :: outer)⟩

/-- A key is skipped with its colon. -/
theorem skipKey_of_mem {key before full : List Char} (isKey : key ∈ Form.anyString)
    (isBefore : before ∈ Form.space) (start : skipSpace full = key ++ (before ++ ':' :: rest)) :
    skipKey full = .ok rest := by
  obtain ⟨body, rfl, skips⟩ := skipString_of_mem isKey
  have colon : skipSpace (before ++ ':' :: rest) = ':' :: rest := by
    rw [skipSpace_space_append isBefore]
    exact skipSpace_cons (by decide) rest
  rw [List.cons_append] at start
  simp [skipKey, start, skips, colon, bind, Except.bind, pure, Except.pure]

/-- A member is skipped with its key. -/
theorem Skips.passes_member {item : List Char} {part : List Char × List Char}
    (skips : Skips part.2) (opens : Opens part.2) (isKey : part.1 ∈ Form.anyString)
    (isMember : item ∈ Form.member part) : Passes .object item := by
  obtain ⟨before, isBefore, behind, isBehind, rfl⟩ := Form.mem_member.mp isMember
  obtain ⟨rounds, few, skips⟩ := skips
  obtain ⟨c, others, quoted, opensKey⟩ := opens_string isKey
  refine ⟨⟨c, _, by rw [quoted]; rfl, opensKey⟩, rounds, by simp; omega, ?_⟩
  intro fuel outer full rest start delimited
  have key : skipKey full = .ok (behind ++ (part.2 ++ rest)) := by
    apply skipKey_of_mem isKey isBefore
    simpa using start
  rw [proceed, key]
  exact skips fuel (.object :: outer) _ rest (opens.skipSpace_eq isBehind rest) delimited

/-- Every value is skipped. -/
theorem Form.IsValue.skips (isValue : Form.IsValue text) : Skips text := by
  induction isValue with
  | word isWord =>
      simp only [Form.words, List.mem_cons, List.not_mem_nil, or_false] at isWord
      rcases isWord with rfl | rfl | rfl
      all_goals
        refine skips_scalar (by simp) fun full rest start _ => ?_
        simp [skipOpening, start, readIdent]
  | @number text isNumber =>
      obtain ⟨c, others, rfl, first⟩ := exists_cons_of_mem_number isNumber
      refine skips_scalar (by simp) fun full rest start delimited => ?_
      have skips := skipNumber_of_mem isNumber delimited
      rw [List.cons_append] at start skips
      have other (d : Char) (noSign : d ≠ '-' ∧ d.isDigit = false) : c ≠ d := by
        rcases first with rfl | digit
        · exact noSign.1.symm
        · exact ne_of_isDigit digit noSign.2
      simp [skipOpening, start, first, skips, other, bind, Except.bind, pure, Except.pure]
  | string isString =>
      obtain ⟨body, rfl, skips⟩ := skipString_of_mem isString
      refine skips_scalar (by simp) fun full rest start _ => ?_
      rw [List.cons_append] at start
      simp [skipOpening, start, skips, bind, Except.bind, pure, Except.pure]
  | array values listed ih =>
      have passes := fun item inside => (ih item inside).passes (values item inside).opens
      exact skips_bracket .list passes listed
  | object keys values listed ih =>
      obtain ⟨items, members, listed⟩ := listed
      refine skips_bracket .object (fun item inside => ?_) listed
      obtain ⟨part, listedPart, isMember⟩ := Checks.exists_mem_of_forall₂ members.flip inside
      exact (ih part listedPart).passes_member (values part listedPart).opens (keys part listedPart)
        isMember

/-- A value is skipped up to what follows it. -/
theorem Form.IsValue.skipValue_eq (isValue : Form.IsValue text) {limit : Nat}
    (room : text.length ≤ limit) {full : List Char} (start : skipSpace full = text ++ rest)
    (delimited : Delimited rest) : skipValue limit full = .ok rest := by
  obtain ⟨rounds, few, skips⟩ := isValue.skips
  have enough : limit + 1 = limit + 1 - rounds + rounds := by omega
  rw [skipValue, enough, skips _ [] full rest start delimited]
  rfl

end TapeMachine.Json
