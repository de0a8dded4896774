import ContextPack.Proofs.Data.JsonNumber
import ContextPack.Proofs.Data.JsonString
import ContextPack.Proofs.Text.Pieces

namespace ContextPack
namespace JsonText

/-!
# Indented JSON text is read as what was written

The writer puts every part on a line of its own, and the reader passes over the
blanks at the start of a line.  A value is read to its end if what follows does
not belong to a number.  As every step of the reader belongs to a character of
the value, a text is long enough to be its own fuel.
-/

variable {φ : Type} [RealText φ]

/-- Values that the reader takes for what they are: their whole numbers fit a
word, their reals read back, and they are nested no deeper than said. -/
def IsWritable (depth : Nat) (datum : Datum φ) : Prop :=
  match datum with
  | .null => True
  | .boolean _ => True
  | .integer value => fitsWord value = true
  | .real x => RealText.ReadsBack x
  | .text _ => True
  | .list items =>
    match depth with
    | 0 => False
    | depth + 1 => ∀ item ∈ items, IsWritable depth item
  | .record fields =>
    match depth with
    | 0 => False
    | depth + 1 => ∀ field ∈ fields, IsWritable depth field.2

/-- A text is read as a value, whatever follows it. -/
def ReadsAs (depth : Nat) (datum : Datum φ) (text : List Char) : Prop :=
  ∀ fuel rest, text.length ≤ fuel → StopsNumber rest →
    readValue fuel depth (text ++ rest) = some (datum, rest)

/-! ## Blanks -/

def AreSpaces (gap : List Char) : Prop := ∀ c ∈ gap, isSpace c = true

/-- The end of a line and what the next one begins with. -/
def lineStart (depth : Nat) : List Char := '\n' :: indentation depth

theorem areSpaces_lineStart (depth : Nat) : AreSpaces (lineStart depth) := by
  intro c member
  rcases List.mem_cons.mp member with rfl | blank
  · rfl
  · rw [(List.mem_replicate.mp blank).2]
    rfl

theorem dropWhile_spaces {gap : List Char} (spaces : AreSpaces gap) {c : Char}
    (noSpace : isSpace c = false) (rest : List Char) :
    (gap ++ c :: rest).dropWhile isSpace = c :: rest := by
  rw [List.dropWhile_append_of_pos spaces,
    List.dropWhile_cons_of_neg (Bool.eq_false_iff.mp noSpace)]

theorem stopsNumber_cons {c : Char} (noNumber : c.isDigit = false ∧ c ≠ '.' ∧ c ≠ 'e' ∧ c ≠ 'E')
    (rest : List Char) : StopsNumber (c :: rest) := by
  intro first isFirst
  cases isFirst
  exact noNumber

theorem stopsNumber_of_isSpace {c : Char} (space : isSpace c = true) (rest : List Char) :
    StopsNumber (c :: rest) := by
  refine stopsNumber_cons ?_ rest
  simp only [isSpace, Bool.or_eq_true, beq_iff_eq] at space
  rcases space with ((rfl | rfl) | rfl) | rfl
  all_goals decide

theorem stopsNumber_spaces {gap : List Char} (spaces : AreSpaces gap) {rest : List Char}
    (stops : StopsNumber rest) : StopsNumber (gap ++ rest) := by
  cases gap with
  | nil => exact stops
  | cons c gap => exact stopsNumber_of_isSpace (spaces c List.mem_cons_self) _

theorem readValue_spaces {gap : List Char} (spaces : AreSpaces gap) (fuel depth : Nat)
    (text : List Char) :
    readValue fuel depth (gap ++ text) = (readValue fuel depth text : Option (Datum φ × _)) := by
  cases fuel with
  | zero => rw [readValue, readValue]
  | succ fuel => rw [readValue, readValue, List.dropWhile_append_of_pos spaces]

/-! ## Values without parts -/

/-- A text that is not empty leaves the reader a step to take. -/
theorem readsAs_of_succ {depth : Nat} {datum : Datum φ} {text : List Char} (nonempty : text ≠ [])
    (reads : ∀ fuel rest, text.length ≤ fuel + 1 → StopsNumber rest →
      readValue (fuel + 1) depth (text ++ rest) = some (datum, rest)) : ReadsAs depth datum text := by
  intro fuel rest enough stops
  cases fuel with
  | zero => exact absurd (List.eq_nil_of_length_eq_zero (Nat.le_zero.mp enough)) nonempty
  | succ fuel => exact reads fuel rest enough stops

theorem readsAs_null (depth : Nat) : ReadsAs depth (Datum.null : Datum φ) ['n', 'u', 'l', 'l'] :=
  readsAs_of_succ (List.cons_ne_nil _ _) fun _ _ _ _ => rfl

theorem readsAs_true (depth : Nat) :
    ReadsAs depth (Datum.boolean true : Datum φ) ['t', 'r', 'u', 'e'] :=
  readsAs_of_succ (List.cons_ne_nil _ _) fun _ _ _ _ => rfl

theorem readsAs_false (depth : Nat) :
    ReadsAs depth (Datum.boolean false : Datum φ) ['f', 'a', 'l', 's', 'e'] :=
  readsAs_of_succ (List.cons_ne_nil _ _) fun _ _ _ _ => rfl

theorem readsAs_text (depth : Nat) (value : String) :
    ReadsAs depth (Datum.text value : Datum φ) (writeString value) := by
  refine readsAs_of_succ (List.cons_ne_nil _ _) fun fuel rest _ _ => ?_
  have body := readString_writeString value rest
  have text : writeString value ++ rest = '"' :: (value.toList.flatMap escape ++ '"' :: rest) := by
    rw [writeString, List.cons_append, List.cons_append, List.append_assoc, List.singleton_append]
  have opened : ('"' :: (value.toList.flatMap escape ++ '"' :: rest)).dropWhile isSpace =
      '"' :: (value.toList.flatMap escape ++ '"' :: rest) := rfl
  rw [text, readValue, opened]
  simp only [body, Option.map_some, String.ofList_toList]

/-! ## Numbers -/

theorem ne_of_isDigit {c other : Char} (digit : c.isDigit = true) (noDigit : other.isDigit = false) :
    c ≠ other := by
  rintro rfl
  cases digit.symm.trans noDigit

theorem isSpace_of_isDigit {c : Char} (digit : c.isDigit = true) : isSpace c = false := by
  have other (blank : Char) (noDigit : blank.isDigit = false) : (c == blank) = false :=
    beq_eq_false_iff_ne.mpr (ne_of_isDigit digit noDigit)
  rw [isSpace, other ' ' (by decide), other '\n' (by decide), other '\r' (by decide),
    other '\t' (by decide)]
  rfl

/-- A digit begins a number, a minus sign one below zero. -/
theorem readValue_signed (negative : Bool) {c : Char} (digit : c.isDigit = true) (fuel depth : Nat)
    (text : List Char) :
    readValue (fuel + 1) depth (if negative then '-' :: c :: text else c :: text) =
      (readNumber negative (c :: text) : Option (Datum φ × _)) := by
  cases negative with
  | true => rfl
  | false =>
      rw [if_neg Bool.false_ne_true, readValue,
        List.dropWhile_cons_of_neg (Bool.eq_false_iff.mp (isSpace_of_isDigit digit))]
      split
      case h_8 => rfl
      all_goals
        next starts =>
          exact absurd (List.cons.inj starts).1 (ne_of_isDigit digit (by decide))

/-- A text of a number is read as that number if its digits are. -/
theorem readsAs_number (depth : Nat) {negative : Bool} {body : List Char} {datum : Datum φ}
    (starts : ∃ c text, body = c :: text ∧ c.isDigit = true)
    (reads : ∀ rest, StopsNumber rest → readNumber negative (body ++ rest) = some (datum, rest)) :
    ReadsAs depth datum (if negative then '-' :: body else body) := by
  rcases starts with ⟨c, text, rfl, digit⟩
  have nonempty : (if negative then '-' :: c :: text else c :: text) ≠ [] := by
    cases negative with
    | true => exact List.cons_ne_nil _ _
    | false => exact List.cons_ne_nil _ _
  refine readsAs_of_succ nonempty fun fuel rest _ stops => ?_
  have whole : (if negative then '-' :: c :: text else c :: text) ++ rest =
      if negative then '-' :: c :: (text ++ rest) else c :: (text ++ rest) := by
    cases negative with
    | true => rfl
    | false => rfl
  rw [whole, readValue_signed negative digit, ← List.cons_append]
  exact reads rest stops

theorem IsWhole.starts {digits : List Char} (isWhole : IsWhole digits) (behind : List Char) :
    ∃ c text, digits ++ behind = c :: text ∧ c.isDigit = true := by
  cases digits with
  | nil => exact absurd rfl isWhole.nonempty
  | cons c digits => exact ⟨c, digits ++ behind, rfl, isWhole.all_digits c List.mem_cons_self⟩

theorem toDigits_starts (n : Nat) :
    ∃ c text, Nat.toDigits 10 n = c :: text ∧ c.isDigit = true := by
  have starts := (isWhole_toDigits n).starts []
  rwa [List.append_nil] at starts

theorem readsAs_integer (depth : Nat) {value : Int} (fits : fitsWord value = true) :
    ReadsAs depth (Datum.integer value : Datum φ) (writeInteger value) := by
  rw [writeInteger_eq]
  split
  · next below =>
      have isValue : (if true = true then -(value.natAbs : Int) else value.natAbs) = value := by
        rw [if_pos rfl]
        omega
      exact readsAs_number depth (toDigits_starts value.natAbs) fun rest stops =>
        readNumber_toDigits isValue fits (fun both => Int.ne_of_lt below both.2) stops
  · next nonneg =>
      have isValue : (if false = true then -(value.natAbs : Int) else value.natAbs) = value := by
        rw [if_neg Bool.false_ne_true]
        omega
      exact readsAs_number depth (toDigits_starts value.natAbs) fun rest stops =>
        readNumber_toDigits isValue fits (fun both => Bool.false_ne_true both.1) stops

theorem readsAs_real (depth : Nat) {x : φ} (readsBack : RealText.ReadsBack x) :
    ReadsAs depth (Datum.real x) (RealText.write x) := by
  rcases readsBack with ⟨spelling, text, stands⟩
  rw [← text, RealSpelling.text]
  refine readsAs_number depth (spelling.isWhole.starts _) fun rest stops => ?_
  rw [readNumber_body spelling stops, stands]
  rfl

/-! ## Starts of values -/

/-- A value can be told from a blank and from the end of a list. -/
theorem IsWritable.starts {depth : Nat} {datum : Datum φ} (writable : IsWritable depth datum)
    (indent : Nat) :
    ∃ c text, pretty indent datum = c :: text ∧ isSpace c = false ∧ c ≠ ']' := by
  have signed (negative : Bool) {body : List Char}
      (starts : ∃ c text, body = c :: text ∧ c.isDigit = true) :
      ∃ c text, (if negative = true then '-' :: body else body) = c :: text ∧
        isSpace c = false ∧ c ≠ ']' := by
    rcases starts with ⟨c, text, rfl, digit⟩
    cases negative with
    | true => exact ⟨'-', c :: text, rfl, by decide, by decide⟩
    | false =>
        exact ⟨c, text, rfl, isSpace_of_isDigit digit, ne_of_isDigit digit (by decide)⟩
  have opened {parts : List (List Char)} {opening closing : Char} (noSpace : isSpace opening = false)
      (noEnd : opening ≠ ']') :
      ∃ c text, block indent opening closing parts = c :: text ∧ isSpace c = false ∧ c ≠ ']' := by
    rw [block]
    split
    · exact ⟨opening, [closing], rfl, noSpace, noEnd⟩
    · exact ⟨opening, _, rfl, noSpace, noEnd⟩
  cases datum with
  | null => exact ⟨'n', _, rfl, by decide, by decide⟩
  | boolean value =>
      cases value with
      | true => exact ⟨'t', _, rfl, by decide, by decide⟩
      | false => exact ⟨'f', _, rfl, by decide, by decide⟩
  | integer value =>
      rw [pretty, writeInteger_eq]
      split
      · exact signed true (toDigits_starts _)
      · exact signed false (toDigits_starts _)
  | real x =>
      rw [IsWritable] at writable
      rcases writable with ⟨spelling, text, -⟩
      rw [pretty, ← text]
      exact signed spelling.negative (spelling.isWhole.starts _)
  | text value => exact ⟨'"', _, rfl, by decide, by decide⟩
  | list items => exact opened (by decide) (by decide)
  | record fields => exact opened (by decide) (by decide)

/-! ## Parts on lines of their own -/

theorem prettyItems_eq (indent : Nat) (items : List (Datum φ)) :
    prettyItems indent items = items.map (pretty indent) := by
  induction items with
  | nil => rfl
  | cons item rest inductionHypothesis => rw [prettyItems, inductionHypothesis, List.map_cons]

/-- A field as it is written. -/
def fieldText (indent : Nat) (field : String × Datum φ) : List Char :=
  writeString field.1 ++ ':' :: ' ' :: pretty indent field.2

theorem prettyFields_eq (indent : Nat) (fields : List (String × Datum φ)) :
    prettyFields indent fields = fields.map (fieldText indent) := by
  induction fields with
  | nil => rfl
  | cons field rest inductionHypothesis =>
      rw [prettyFields, inductionHypothesis, List.map_cons]
      rfl

theorem block_of_ne_nil (indent : Nat) (opening closing : Char) {parts : List (List Char)}
    (nonempty : parts ≠ []) (rest : List Char) :
    block indent opening closing parts ++ rest =
      opening :: (lineStart (indent + 1) ++
        (Text.joinWith (',' :: lineStart (indent + 1)) parts ++
          (lineStart indent ++ closing :: rest))) := by
  rw [block, List.isEmpty_eq_false_iff.mpr nonempty, if_neg Bool.false_ne_true]
  simp only [lineStart, List.cons_append, List.append_assoc, List.nil_append]

theorem length_joinWith_lt_block (indent : Nat) (opening closing : Char)
    {parts : List (List Char)} (nonempty : parts ≠ []) :
    (Text.joinWith (',' :: lineStart (indent + 1)) parts).length + 1 <
      (block indent opening closing parts).length := by
  have whole := congrArg List.length (block_of_ne_nil indent opening closing nonempty [])
  simp only [List.append_nil, List.length_cons, List.length_append] at whole
  omega

/-- What the first of several parts begins with, behind the blanks before it. -/
theorem dropWhile_joinWith {gap : List Char} (gapSpaces : AreSpaces gap) (separator : List Char)
    {parts : List (List Char)} {c : Char} {text : List Char} (first : parts.head? = some (c :: text))
    (noSpace : isSpace c = false) (rest : List Char) :
    ∃ later, (gap ++ (Text.joinWith separator parts ++ rest)).dropWhile isSpace = c :: later := by
  rcases parts with _ | ⟨part, _ | ⟨next, others⟩⟩
  · cases first
  · cases Option.some.inj first
    exact ⟨text ++ rest, dropWhile_spaces gapSpaces noSpace _⟩
  · cases Option.some.inj first
    rw [Text.joinWith_cons _ _ (List.cons_ne_nil next others)]
    exact ⟨_, dropWhile_spaces gapSpaces noSpace _⟩

/-! ## Readers of parts -/

section Parts

variable {β : Type} {reader : Nat → List Char → Option (List β × List Char)}
  {gap ending : List Char} {closing : Char}

/-- A step of a reader of parts: it takes a part with the comma behind it, or
with the bracket that closes the block. -/
structure TakesPart (reader : Nat → List Char → Option (List β × List Char))
    (gap ending : List Char) (closing : Char) (text : List Char) (part : β) : Prop where
  last : ∀ fuel rest, text.length ≤ fuel →
    reader (fuel + 1) (gap ++ (text ++ (ending ++ closing :: rest))) = some ([part], rest)
  more : ∀ fuel rest others after, text.length ≤ fuel → reader fuel rest = some (others, after) →
    reader (fuel + 1) (gap ++ (text ++ ',' :: rest)) = some (part :: others, after)

/-- Parts are read one after the other, up to the bracket that closes the
block. -/
theorem reader_joinWith {spell : β → List Char} {parts : List β} (nonempty : parts ≠ [])
    (takes : ∀ part ∈ parts, TakesPart reader gap ending closing (spell part) part) {fuel : Nat}
    (enough : (Text.joinWith (',' :: gap) (parts.map spell)).length < fuel) (rest : List Char) :
    reader fuel (gap ++ (Text.joinWith (',' :: gap) (parts.map spell) ++
      (ending ++ closing :: rest))) = some (parts, rest) := by
  induction parts generalizing fuel with
  | nil => exact absurd rfl nonempty
  | cons part others inductionHypothesis =>
      rw [List.forall_mem_cons] at takes
      cases fuel with
      | zero => exact absurd enough (Nat.not_lt_zero _)
      | succ fuel =>
          by_cases single : others = []
          · subst single
            rw [List.map_singleton, Text.joinWith] at enough ⊢
            exact takes.1.last fuel rest (Nat.le_of_lt_succ enough)
          · have more : others.map spell ≠ [] := List.map_eq_nil_iff.not.mpr single
            rw [List.map_cons, Text.joinWith_cons _ _ more] at enough ⊢
            simp only [List.length_append, List.length_cons] at enough
            have left : (Text.joinWith (',' :: gap) (others.map spell)).length < fuel := by omega
            have later := inductionHypothesis single takes.2 left
            rw [List.append_assoc, List.append_assoc]
            exact takes.1.more fuel _ others rest (by omega) later

/-- A block is read if a reader takes its parts and the value is what the
reader finds behind the opening bracket. -/
theorem readsAs_block {depth indent : Nat} {opening : Char} {datum : Datum φ}
    {spell : β → List Char} {parts : List β} (nonempty : parts ≠ [])
    (starts : ∀ part ∈ parts, ∃ c text, spell part = c :: text ∧ isSpace c = false ∧ c ≠ closing)
    (takes : ∀ part ∈ parts, TakesPart reader (lineStart (indent + 1)) (lineStart indent) closing
      (spell part) part)
    (opens : ∀ fuel text c later rest, c ≠ closing → text.dropWhile isSpace = c :: later →
      reader fuel text = some (parts, rest) →
      readValue (fuel + 1) depth (opening :: text) = some (datum, rest)) :
    ReadsAs depth datum (block indent opening closing (parts.map spell)) := by
  have someTexts : parts.map spell ≠ [] := List.map_eq_nil_iff.not.mpr nonempty
  have shorter := length_joinWith_lt_block indent opening closing someTexts
  have someText : block indent opening closing (parts.map spell) ≠ [] :=
    List.ne_nil_of_length_pos (by omega)
  refine readsAs_of_succ someText fun fuel rest enough _ => ?_
  have left := Nat.lt_of_succ_lt_succ (Nat.lt_of_lt_of_le shorter enough)
  have found := reader_joinWith nonempty takes left rest
  cases parts with
  | nil => exact absurd rfl nonempty
  | cons part others =>
      rcases starts part List.mem_cons_self with ⟨c, text, first, noSpace, noEnd⟩
      have isFirst : ((part :: others).map spell).head? = some (c :: text) := congrArg some first
      rcases dropWhile_joinWith (areSpaces_lineStart (indent + 1)) (',' :: lineStart (indent + 1))
        isFirst noSpace (lineStart indent ++ closing :: rest) with ⟨later, begins⟩
      rw [block_of_ne_nil indent opening closing someTexts]
      exact opens fuel _ c later rest noEnd begins found

end Parts

/-! ## Lists and records -/

section Blocks

variable {depth indent : Nat} {gap ending : List Char}

theorem stopsNumber_ending (endingSpaces : AreSpaces ending) {c : Char}
    (noNumber : c.isDigit = false ∧ c ≠ '.' ∧ c ≠ 'e' ∧ c ≠ 'E') (rest : List Char) :
    StopsNumber (ending ++ c :: rest) :=
  stopsNumber_spaces endingSpaces (stopsNumber_cons noNumber rest)

theorem takesPart_readItems (gapSpaces : AreSpaces gap) (endingSpaces : AreSpaces ending)
    {item : Datum φ} {text : List Char} (reads : ReadsAs depth item text) :
    TakesPart (fun fuel => readItems fuel depth) gap ending ']' text item where
  last fuel rest enough := by
    have stops := stopsNumber_ending endingSpaces (c := ']') (by decide) rest
    rw [readItems, readValue_spaces gapSpaces, reads fuel _ enough stops]
    simp only [dropWhile_spaces endingSpaces (c := ']') (by decide)]
  more fuel rest others after enough later := by
    have stops := stopsNumber_cons (c := ',') (by decide) rest
    rw [readItems, readValue_spaces gapSpaces, reads fuel _ enough stops]
    simp only [List.dropWhile_cons_of_neg (p := isSpace) (a := ',') (by decide), later,
      Option.map_some]

/-- Reading on behind the value of a field. -/
def readFieldsAfter (fuel depth : Nat) (name : String) :
    Option (Datum φ × List Char) → Option (List (String × Datum φ) × List Char)
  | none => none
  | some (value, rest) =>
    match rest.dropWhile isSpace with
    | ',' :: rest =>
      (readFields fuel depth rest).map fun (fields, rest) => ((name, value) :: fields, rest)
    | '\x7d' :: rest => some ([(name, value)], rest)
    | _ => none

/-- A field begins with its name, which is read up to the colon. -/
theorem readFields_field (gapSpaces : AreSpaces gap) (name : String) (fuel : Nat)
    (text : List Char) :
    readFields (fuel + 1) depth (gap ++ (writeString name ++ ':' :: ' ' :: text)) =
      readFieldsAfter fuel depth name (readValue fuel depth text : Option (Datum φ × List Char)) := by
  have named := readString_writeString name (':' :: ' ' :: text)
  have opened : (gap ++ (writeString name ++ ':' :: ' ' :: text)).dropWhile isSpace =
      '"' :: (name.toList.flatMap escape ++ '"' :: ':' :: ' ' :: text) := by
    rw [writeString, List.cons_append, List.cons_append, List.append_assoc, List.singleton_append]
    exact dropWhile_spaces gapSpaces (by decide) _
  have colon : (':' :: ' ' :: text).dropWhile isSpace = ':' :: ' ' :: text := rfl
  have blank : AreSpaces [' '] := by
    intro c member
    rw [List.mem_singleton.mp member]
    rfl
  have value := readValue_spaces (φ := φ) blank fuel depth text
  rw [List.singleton_append] at value
  rw [readFields, opened]
  simp only [named, colon, value, String.ofList_toList]
  rfl

theorem takesPart_readFields (gapSpaces : AreSpaces gap) (endingSpaces : AreSpaces ending)
    {field : String × Datum φ} (reads : ReadsAs depth field.2 (pretty indent field.2)) :
    TakesPart (fun fuel => readFields fuel depth) gap ending '\x7d' (fieldText indent field)
      field where
  last fuel rest enough := by
    have stops := stopsNumber_ending endingSpaces (c := '\x7d') (by decide) rest
    rw [fieldText, List.length_append, List.length_cons, List.length_cons] at enough
    rw [fieldText, List.append_assoc, List.cons_append, List.cons_append,
      readFields_field gapSpaces, reads fuel _ (by omega) stops, readFieldsAfter]
    simp only [dropWhile_spaces endingSpaces (c := '\x7d') (by decide)]
  more fuel rest others after enough later := by
    have stops := stopsNumber_cons (c := ',') (by decide) rest
    rw [fieldText, List.length_append, List.length_cons, List.length_cons] at enough
    rw [fieldText, List.append_assoc, List.cons_append, List.cons_append,
      readFields_field gapSpaces, reads fuel _ (by omega) stops, readFieldsAfter]
    simp only [List.dropWhile_cons_of_neg (p := isSpace) (a := ',') (by decide), later,
      Option.map_some]

/-- A bracket that no bracket follows begins a list with items. -/
theorem readValue_bracket {fuel : Nat} {text later : List Char} {c : Char} (noEnd : c ≠ ']')
    (starts : text.dropWhile isSpace = c :: later) {items : List (Datum φ)} {rest : List Char}
    (reads : readItems fuel depth text = some (items, rest)) :
    readValue (fuel + 1) (depth + 1) ('[' :: text) = some (.list items, rest) := by
  have opened : ('[' :: text).dropWhile isSpace = '[' :: text := rfl
  rw [readValue, opened]
  simp only [starts]
  split
  · next ended => exact absurd (List.cons.inj ended).1 noEnd
  · rw [reads]
    rfl

/-- A brace that no brace follows begins a record with fields. -/
theorem readValue_brace {fuel : Nat} {text later : List Char} {c : Char} (noEnd : c ≠ '\x7d')
    (starts : text.dropWhile isSpace = c :: later) {fields : List (String × Datum φ)}
    {rest : List Char} (reads : readFields fuel depth text = some (fields, rest)) :
    readValue (fuel + 1) (depth + 1) ('\x7b' :: text) = some (.record fields, rest) := by
  have opened : ('\x7b' :: text).dropWhile isSpace = '\x7b' :: text := rfl
  rw [readValue, opened]
  simp only [starts]
  split
  · next ended => exact absurd (List.cons.inj ended).1 noEnd
  · rw [reads]
    rfl

/-- A list is read if its items are. -/
theorem readsAs_list {items : List (Datum φ)}
    (starts : ∀ item ∈ items, ∃ c text, pretty (indent + 1) item = c :: text ∧
      isSpace c = false ∧ c ≠ ']')
    (reads : ∀ item ∈ items, ReadsAs depth item (pretty (indent + 1) item)) :
    ReadsAs (depth + 1) (.list items) (pretty indent (.list items)) := by
  rw [pretty, prettyItems_eq]
  by_cases none : items = []
  · subst none
    exact readsAs_of_succ (List.cons_ne_nil _ _) fun _ _ _ _ => rfl
  · refine readsAs_block none starts (fun item member => takesPart_readItems
      (areSpaces_lineStart (indent + 1)) (areSpaces_lineStart indent) (reads item member)) ?_
    intro fuel text c later rest noEnd begins found
    exact readValue_bracket noEnd begins found

/-- A record is read if the values of its fields are. -/
theorem readsAs_record {fields : List (String × Datum φ)}
    (reads : ∀ field ∈ fields, ReadsAs depth field.2 (pretty (indent + 1) field.2)) :
    ReadsAs (depth + 1) (.record fields) (pretty indent (.record fields)) := by
  rw [pretty, prettyFields_eq]
  by_cases none : fields = []
  · subst none
    exact readsAs_of_succ (List.cons_ne_nil _ _) fun _ _ _ _ => rfl
  · refine readsAs_block none (fun field _ => ⟨'"', _, rfl, by decide, by decide⟩)
      (fun field member => takesPart_readFields (areSpaces_lineStart (indent + 1))
        (areSpaces_lineStart indent) (reads field member)) ?_
    intro fuel text c later rest noEnd begins found
    exact readValue_brace noEnd begins found

end Blocks

/-! ## Whole texts -/

/-- Whatever can be written is read as it was, at any depth of its
surroundings. -/
theorem IsWritable.readsAs {depth : Nat} {datum : Datum φ} (writable : IsWritable depth datum)
    (indent : Nat) : ReadsAs depth datum (pretty indent datum) := by
  induction depth using Nat.strongRecOn generalizing datum indent with
  | ind depth inductionHypothesis =>
      cases datum with
      | null => exact readsAs_null depth
      | boolean value =>
          cases value with
          | true => exact readsAs_true depth
          | false => exact readsAs_false depth
      | integer value =>
          rw [IsWritable] at writable
          exact readsAs_integer depth writable
      | real x =>
          rw [IsWritable] at writable
          exact readsAs_real depth writable
      | text value => exact readsAs_text depth value
      | list items =>
          cases depth with
          | zero => exact absurd writable (by simp [IsWritable])
          | succ depth =>
              simp only [IsWritable] at writable
              exact readsAs_list (fun item member => (writable item member).starts _)
                fun item member =>
                  inductionHypothesis depth (Nat.lt_succ_self depth) (writable item member) _
      | record fields =>
          cases depth with
          | zero => exact absurd writable (by simp [IsWritable])
          | succ depth =>
              simp only [IsWritable] at writable
              exact readsAs_record fun field member =>
                inductionHypothesis depth (Nat.lt_succ_self depth) (writable field member) _

/-- A whole text is read as the value that was written, and blanks behind it do
not matter. -/
theorem read?_pretty {datum : Datum φ} (writable : IsWritable nestingLimit datum)
    {trailing : List Char} (spaces : AreSpaces trailing) :
    read? (pretty 0 datum ++ trailing) = some datum := by
  have stops : StopsNumber trailing := by
    have atEnd : StopsNumber [] := fun c first => nomatch first
    have ended := stopsNumber_spaces spaces atEnd
    rwa [List.append_nil] at ended
  have enough : (pretty 0 datum).length ≤ 2 * (pretty 0 datum ++ trailing).length + 2 := by
    rw [List.length_append]
    omega
  have onlySpaces : trailing.all isSpace = true := List.all_eq_true.mpr spaces
  rw [read?, writable.readsAs 0 _ trailing enough stops]
  simp only [onlySpaces, if_true]

/-! ## Texts of one real -/

theorem read?_text (spelling : RealSpelling) :
    read? spelling.text = (spelling.read? : Option φ).map Datum.real := by
  rcases spelling.isWhole.starts (fractionPart spelling.fraction ++ exponentPart spelling.exponent)
    with ⟨c, text, body, digit⟩
  have atEnd : StopsNumber [] := fun c first => nomatch first
  have number := readNumber_body (φ := φ) spelling atEnd
  rw [List.append_nil, RealSpelling.body, body] at number
  rw [read?, RealSpelling.text, RealSpelling.body, body, readValue_signed spelling.negative digit,
    number]
  cases (spelling.read? : Option φ) with
  | none => rfl
  | some x => rfl

/-- A spelled real reads back if its text by itself does. -/
theorem readsBack_of_read? {x : φ} {spelling : RealSpelling} (text : spelling.text = RealText.write x)
    (reads : read? (RealText.write x) = some (Datum.real x)) : RealText.ReadsBack x := by
  rw [← text, read?_text, Option.map_eq_some_iff] at reads
  rcases reads with ⟨y, stands, same⟩
  cases same
  exact ⟨spelling, text, stands⟩

end JsonText
end ContextPack
