import ContextPack.Data.Datum
import ContextPack.Data.RealLiteral

/-!
# TOML scalars

Strings, keys, numbers and dates of a TOML text.  Each reader takes what it
reads off the front and gives back the rest.
-/

namespace ContextPack.Toml

/-- A blank within a line. -/
def isBlank (c : Char) : Bool := c == ' ' || c == '\t'

def skipBlanks (text : List Char) : List Char := text.dropWhile isBlank

/-- What follows a line end, if one stands here. -/
def lineEnd? : List Char → Option (List Char)
  | '\n' :: rest => some rest
  | '\r' :: '\n' :: rest => some rest
  | _ => none

/-- Whether a character may stand in a comment or, unescaped, in a string. -/
def isPlain (c : Char) : Bool := c == '\t' || (32 ≤ c.toNat && c.toNat != 127)

/-! ## Strings -/

def hexValue? (c : Char) : Option Nat :=
  if c.isDigit then some (c.toNat - '0'.toNat)
  else if 'a' ≤ c && c ≤ 'f' then some (c.toNat - 'a'.toNat + 10)
  else if 'A' ≤ c && c ≤ 'F' then some (c.toNat - 'A'.toNat + 10)
  else none

/-- The character whose number stands here in so many hexadecimal digits. -/
def codePoint? (length : Nat) (text : List Char) : Option (Char × List Char) := do
  let digits ← (text.take length).mapM hexValue?
  let code := digits.foldl (fun value digit => 16 * value + digit) 0
  if digits.length = length && (code < 0xD800 || (0xE000 ≤ code && code < 0x110000)) then
    some (Char.ofNat code, text.drop length)
  else none

/-- The character that an escape stands for, after its backslash. -/
def unescape? : List Char → Option (Char × List Char)
  | 'b' :: rest => some ('\x08', rest)
  | 't' :: rest => some ('\t', rest)
  | 'n' :: rest => some ('\n', rest)
  | 'f' :: rest => some ('\x0c', rest)
  | 'r' :: rest => some ('\r', rest)
  | '"' :: rest => some ('"', rest)
  | '\\' :: rest => some ('\\', rest)
  | 'u' :: rest => codePoint? 4 rest
  | 'U' :: rest => codePoint? 8 rest
  | _ => none

/-- A character in front of what else was read. -/
def before (c : Char) (read : Option (List Char × List Char)) : Option (List Char × List Char) :=
  read.map fun (text, rest) => (c :: text, rest)

/-- The rest of a string on one line.  `quote` closes it, and backslashes escape
unless it is literal. -/
def shortString (quote : Char) (literal : Bool) : Nat → List Char → Option (List Char × List Char)
  | 0, _ => none
  | _, [] => none
  | fuel + 1, c :: rest =>
    if c == quote then some ([], rest)
    else if c == '\\' && !literal then
      match unescape? rest with
      | some (escaped, rest) => before escaped (shortString quote literal fuel rest)
      | none => none
    else if isPlain c then before c (shortString quote literal fuel rest)
    else none

/-- What follows an escaped line end and all blanks after it. -/
def joinedLine? (text : List Char) : Option (List Char) :=
  (lineEnd? (skipBlanks text)).map fun rest =>
    rest.dropWhile fun c => isBlank c || c == '\n' || c == '\r'

/-- The rest of a string of several lines, which three quotes close; two more
quotes before them belong to the string. -/
def longString (quote : Char) (literal : Bool) : Nat → List Char → Option (List Char × List Char)
  | 0, _ => none
  | _, [] => none
  | fuel + 1, c :: rest =>
    if c == quote then
      let quotes := ((c :: rest).take 5).takeWhile (· == quote)
      if 3 ≤ quotes.length then
        some (List.replicate (quotes.length - 3) quote, (c :: rest).drop quotes.length)
      else before c (longString quote literal fuel rest)
    else if c == '\\' && !literal then
      match joinedLine? rest with
      | some rest => longString quote literal fuel rest
      | none =>
        match unescape? rest with
        | some (escaped, rest) => before escaped (longString quote literal fuel rest)
        | none => none
    else if isPlain c then before c (longString quote literal fuel rest)
    else
      match lineEnd? (c :: rest) with
      | some rest => before '\n' (longString quote literal fuel rest)
      | none => none

def dropLineEnd (text : List Char) : List Char := (lineEnd? text).getD text

/-- The string that begins here. -/
def string? (text : List Char) : Option (String × List Char) :=
  let fuel := text.length + 1
  let read :=
    match text with
    | '"' :: '"' :: '"' :: rest => longString '"' false fuel (dropLineEnd rest)
    | '\'' :: '\'' :: '\'' :: rest => longString '\'' true fuel (dropLineEnd rest)
    | '"' :: rest => shortString '"' false fuel rest
    | '\'' :: rest => shortString '\'' true fuel rest
    | _ => none
  read.map fun (characters, rest) => (String.ofList characters, rest)

/-! ## Keys -/

def isKeyCharacter (c : Char) : Bool := c.isAlphanum || c == '_' || c == '-'

/-- One part of a key; it stands bare or in quotes, but not in three of them. -/
def keyPart? (text : List Char) : Option (String × List Char) :=
  let fuel := text.length + 1
  let read :=
    match text with
    | '"' :: rest => shortString '"' false fuel rest
    | '\'' :: rest => shortString '\'' true fuel rest
    | _ =>
      let (name, rest) := text.span isKeyCharacter
      if name.isEmpty then none else some (name, rest)
  read.map fun (name, rest) => (String.ofList name, rest)

/-- A key: parts with dots between them, blanks around every part. -/
def key? : Nat → List Char → Option (List String × List Char)
  | 0, _ => none
  | fuel + 1, text =>
    match keyPart? (skipBlanks text) with
    | none => none
    | some (part, rest) =>
      match skipBlanks rest with
      | '.' :: rest => (key? fuel rest).map fun (parts, rest) => (part :: parts, rest)
      | rest => some ([part], rest)

/-! ## Numbers -/

/-- Digits with an underscore between some of them. -/
def digits (isDigit : Char → Bool) : List Char → List Char × List Char
  | [] => ([], [])
  | c :: '_' :: d :: rest =>
    if isDigit c && isDigit d then
      let (more, rest) := digits isDigit (d :: rest)
      (c :: more, rest)
    else if isDigit c then ([c], '_' :: d :: rest)
    else ([], c :: '_' :: d :: rest)
  | c :: rest =>
    if isDigit c then
      let (more, rest) := digits isDigit rest
      (c :: more, rest)
    else ([], c :: rest)

/-- The digits of a decimal number before any point: a zero stands alone. -/
def wholeDigits (text : List Char) : List Char × List Char :=
  match text with
  | '0' :: rest => (['0'], rest)
  | _ => digits Char.isDigit text

/-- The digits after a point, none if there is no point. -/
def fractionDigits : List Char → Option (List Char × List Char)
  | '.' :: rest =>
    let (found, rest) := digits Char.isDigit rest
    if found.isEmpty then none else some (found, rest)
  | _ => none

/-- An exponent with its mark, none if there is no mark. -/
def exponentPart : List Char → Option (Int × List Char)
  | mark :: rest =>
    if mark == 'e' || mark == 'E' then
      let (negative, rest) := RealLiteral.takeSign rest
      let (found, rest) := digits Char.isDigit rest
      if found.isEmpty then none
      else
        let size : Int := RealLiteral.natural found
        some (if negative then -size else size, rest)
    else none
  | [] => none

variable {φ : Type} [RealLiteral φ]

/-- The value of a whole number, which has to fit into 64 bits. -/
def wholeNumber? (value : Int) (rest : List Char) : Option (Datum φ × List Char) :=
  if -9223372036854775808 ≤ value && value ≤ 9223372036854775807 then some (.integer value, rest)
  else none

/-- The value of a real number; one that is too large is none. -/
def realNumber? (value : φ) (negative : Bool) (rest : List Char) :
    Option (Datum φ × List Char) :=
  if RealLiteral.isInfinite value && !negative then none else some (.real value, rest)

/-- A number in another base, after the mark of the base. -/
def based? (base : Nat) (text : List Char) : Option (Datum φ × List Char) :=
  let valueOf (c : Char) : Option Nat :=
    match hexValue? c with
    | some value => if value < base then some value else none
    | none => none
  let (found, rest) := digits (fun c => (valueOf c).isSome) text
  if found.isEmpty then none
  else
    let value := (found.filterMap valueOf).foldl (fun value digit => base * value + digit) 0
    wholeNumber? value rest

/-- A decimal number after its sign. -/
def decimal? (negative : Bool) (text : List Char) : Option (Datum φ × List Char) :=
  let (whole, rest) := wholeDigits text
  if whole.isEmpty then none
  else
    let signed (value : Nat) : Int := if negative then -(value : Int) else value
    match fractionDigits rest with
    | some (fraction, rest) =>
      let (exponent, rest) := (exponentPart rest).getD (0, rest)
      realNumber? (RealLiteral.ofParts negative whole fraction exponent) negative rest
    | none =>
      match exponentPart rest with
      | some (exponent, rest) =>
        realNumber? (RealLiteral.ofParts negative whole [] exponent) negative rest
      | none => wholeNumber? (signed (RealLiteral.natural whole)) rest

def number? (text : List Char) : Option (Datum φ × List Char) :=
  let (negative, body) := RealLiteral.takeSign text
  match body with
  | 'i' :: 'n' :: 'f' :: rest => some (.real (RealLiteral.infinity negative), rest)
  | 'n' :: 'a' :: 'n' :: rest => some (.real RealLiteral.notANumber, rest)
  | _ =>
    match text with
    | '0' :: 'x' :: rest => based? 16 rest
    | '0' :: 'o' :: rest => based? 8 rest
    | '0' :: 'b' :: rest => based? 2 rest
    | _ => decimal? negative body

/-! ## Dates -/

/-- A number of so many digits, within bounds. -/
def field? (length low high : Nat) (text : List Char) : Option (Nat × List Char) :=
  let found := text.take length
  let value := RealLiteral.natural found
  if found.length = length && found.all Char.isDigit && low ≤ value && value ≤ high then
    some (value, text.drop length)
  else none

def daysIn (year month : Nat) : Nat :=
  if month = 2 then
    if year % 4 = 0 && (year % 100 != 0 || year % 400 = 0) then 29 else 28
  else if [4, 6, 9, 11].contains month then 30 else 31

/-- What follows a date. -/
def date? (text : List Char) : Option (List Char) := do
  let (year, rest) ← field? 4 0 9999 text
  let '-' :: rest := rest | none
  let (month, rest) ← field? 2 1 12 rest
  let '-' :: rest := rest | none
  let (_, rest) ← field? 2 1 (daysIn year month) rest
  return rest

/-- What follows a time of day. -/
def time? (text : List Char) : Option (List Char) := do
  let (_, rest) ← field? 2 0 23 text
  let ':' :: rest := rest | none
  let (_, rest) ← field? 2 0 59 rest
  let ':' :: rest := rest | none
  let (_, rest) ← field? 2 0 60 rest
  match rest with
  | '.' :: fraction =>
    if (fraction.head?.map Char.isDigit).getD false then return fraction.dropWhile Char.isDigit
    else return rest
  | _ => return rest

/-- What follows an offset from universal time, which may be missing. -/
def skipOffset (text : List Char) : List Char :=
  match text with
  | 'Z' :: rest => rest
  | 'z' :: rest => rest
  | sign :: rest =>
    if sign == '+' || sign == '-' then
      let found : Option (List Char) := do
        let (_, rest) ← field? 2 0 23 rest
        let ':' :: rest := rest | none
        let (_, rest) ← field? 2 0 59 rest
        return rest
      found.getD text
    else text
  | [] => []

/-- What follows a date, a time or both. -/
def moment? (text : List Char) : Option (List Char) :=
  match date? text with
  | none => time? text
  | some rest =>
    match rest with
    | mark :: after =>
      if mark == 'T' || mark == 't' || mark == ' ' then
        match time? after with
        | some rest => some (skipOffset rest)
        | none => some rest
      else some rest
    | [] => some []

/-- A date stands for a record with a field that no settings have. -/
def momentDatum : Datum φ := .record [("date and time", .null)]

def dateOrNumber? (text : List Char) : Option (Datum φ × List Char) :=
  match moment? text with
  | some rest => some (momentDatum, rest)
  | none => number? text

end ContextPack.Toml
