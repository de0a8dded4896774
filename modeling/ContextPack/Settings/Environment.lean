import ContextPack.Data.Overlay
import ContextPack.Data.RealLiteral
import ContextPack.Text.Blank

/-!
# Settings in the environment

Environment variables with a common beginning set single keys: two underscores,
or a dot, separate a section from a key in it.  The value is read as a truth
value, a number, a text in quotes, a list or a record, and as plain text if it
is none of these as a whole.
-/

namespace ContextPack.Environment

variable {φ : Type} [RealLiteral φ]

/-! ## Values -/

def isSpace (c : Char) : Bool := c == ' ' || c == '\t' || c == '\n' || c == '\r'

def skipSpace (text : List Char) : List Char := text.dropWhile isSpace

/-- Whether a character ends a bare value. -/
def isSeparator (c : Char) : Bool := [',', '\x7b', '\x7d', '[', ']'].contains c

/-- Whether a character may stand in a bare key. -/
def isKeyCharacter (c : Char) : Bool := c.isAlphanum || c == '_' || c == '-'

def quotedText : List Char → Option (List Char × List Char)
  | [] => none
  | '"' :: rest => some ([], rest)
  | '\\' :: c :: rest =>
    let escaped : Option Char :=
      match c with
      | '"' => some '"'
      | '\\' => some '\\'
      | 'n' => some '\n'
      | 'r' => some '\r'
      | 't' => some '\t'
      | _ => none
    match escaped with
    | some c => (quotedText rest).map fun (text, rest) => (c :: text, rest)
    | none => none
  | c :: rest => (quotedText rest).map fun (text, rest) => (c :: text, rest)

/-- The whole number of a text, if it fits into 64 bits. -/
def wholeNumber? (text : List Char) : Option Int :=
  let (negative, digits) := RealLiteral.takeSign text
  if digits.isEmpty || !digits.all Char.isDigit then none
  else
    let size := RealLiteral.natural digits
    if negative then (if size ≤ 9223372036854775808 then some (-(size : Int)) else none)
    else if size ≤ 18446744073709551615 then some size
    else none

/-- The value of a bare text: a real needs a point. -/
def bareValue (text : List Char) : Datum φ :=
  let real : Option φ := if text.contains '.' then RealLiteral.ofDigits? text else none
  match real with
  | some value => .real value
  | none =>
    match wholeNumber? text with
    | some value => .integer value
    | none => .text (String.ofList text)

/-- The name of a field at the start of a text. -/
def fieldName? (text : List Char) : Option (List Char × List Char) :=
  match skipSpace text with
  | '"' :: rest => quotedText rest
  | text =>
    let (name, rest) := text.span isKeyCharacter
    if name.isEmpty then none else some (name, rest)

/-- Fields with one before them, which counts only if none of its name follows. -/
def fieldBefore (name : String) (value : Datum φ) (fields : List (String × Datum φ)) :
    List (String × Datum φ) :=
  if fields.any fun field => field.1 == name then fields else (name, value) :: fields

mutual

/-- The value at the start of a text.  A single character in quotes is a value
that no setting takes. -/
def value? : Nat → List Char → Option (Datum φ × List Char)
  | 0, _ => none
  | fuel + 1, text =>
    let read : Option (Datum φ × List Char) :=
      match skipSpace text with
      | 't' :: 'r' :: 'u' :: 'e' :: rest => some (.boolean true, rest)
      | 'f' :: 'a' :: 'l' :: 's' :: 'e' :: rest => some (.boolean false, rest)
      | '\x7b' :: rest => (fields fuel rest).map fun (fields, rest) => (.record fields, rest)
      | '[' :: rest => (items fuel rest).map fun (items, rest) => (.list items, rest)
      | '"' :: rest => (quotedText rest).map fun (text, rest) => (.text (String.ofList text), rest)
      | '\'' :: _ :: '\'' :: rest => some (.null, rest)
      | '\'' :: _ => none
      | text =>
        let (bare, rest) := text.span fun c => !isSeparator c
        some (bareValue (Text.trimChars bare), rest)
    read.map fun (value, rest) => (value, skipSpace rest)

/-- The rest of a list. -/
def items : Nat → List Char → Option (List (Datum φ) × List Char)
  | 0, _ => none
  | _, ']' :: rest => some ([], rest)
  | fuel + 1, text =>
    match value? fuel text with
    | some (item, ',' :: rest) => (items fuel rest).map fun (more, rest) => (item :: more, rest)
    | some (item, ']' :: rest) => some ([item], rest)
    | _ => none

/-- The rest of a record. -/
def fields : Nat → List Char → Option (List (String × Datum φ) × List Char)
  | 0, _ => none
  | _, '\x7d' :: rest => some ([], rest)
  | fuel + 1, text =>
    match fieldName? text with
    | none => none
    | some (name, rest) =>
      match skipSpace rest with
      | '=' :: rest =>
        match value? fuel rest with
        | some (value, ',' :: rest) =>
          (fields fuel rest).map fun (more, rest) => (fieldBefore (String.ofList name) value more, rest)
        | some (value, '\x7d' :: rest) => some ([(String.ofList name, value)], rest)
        | _ => none
      | _ => none

end

/-- The value of a variable. -/
def valueOf (text : String) : Datum φ :=
  match value? (2 * text.length + 2) text.toList with
  | some (value, []) => value
  | _ => .text text

/-! ## Names -/

/-- What the names of all variables for settings begin with, in small letters. -/
def nameStart : List Char := "diff_context_".toList

/-- A text with a dot for every two underscores. -/
def dotted : List Char → List Char
  | '_' :: '_' :: rest => '.' :: dotted rest
  | c :: rest => c :: dotted rest
  | [] => []

/-- The keys that a variable's name leads through; none if it is not a setting's
name. -/
def keys? (name : String) : Option (List String) :=
  match Text.stripStart? nameStart (Text.lowerAscii name.toList) with
  | none => none
  | some rest =>
    let keys := Text.pieces '.' (Text.trimChars (dotted rest))
    if keys.any List.isEmpty then none else some (keys.map String.ofList)

/-- What all variables set, later ones over earlier ones. -/
def settingsOf (entries : List (String × String)) : Datum φ :=
  entries.foldl
    (fun (gathered : Datum φ) (entry : String × String) =>
      match keys? entry.1 with
      | some keys => gathered.overlay (.nested keys (valueOf entry.2))
      | none => gathered)
    (.record [])

end ContextPack.Environment
