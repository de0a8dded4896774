import ContextPack.Data.Toml.Scalar
import ContextPack.Data.Toml.Table

/-!
# TOML documents

Reads a TOML text: headers that open tables and keys with values, one on each
line.
-/

namespace ContextPack.Toml

variable {φ : Type} [RealLiteral φ]

/-- What follows a comment, up to the end of its line. -/
def skipComment (text : List Char) : List Char :=
  match text with
  | '#' :: rest => rest.dropWhile isPlain
  | _ => text

/-- What follows blanks, comments and line ends. -/
def skipLines : Nat → List Char → List Char
  | 0, text => text
  | fuel + 1, text =>
    let after := skipComment (skipBlanks text)
    match lineEnd? after with
    | some rest => skipLines fuel rest
    | none => after

def skipAll (text : List Char) : List Char := skipLines text.length text

mutual

/-- The value that begins here. -/
def value? : Nat → List Char → Option (Datum φ × List Char)
  | 0, _ => none
  | _, [] => none
  | fuel + 1, c :: rest =>
    if c == '"' || c == '\'' then
      (string? (c :: rest)).map fun (text, rest) => (.text text, rest)
    else if c == '[' then
      (items fuel rest).map fun (items, rest) => (.list items, rest)
    else if c == '\x7b' then
      match skipBlanks rest with
      | '\x7d' :: rest => some (.record [], rest)
      | rest =>
        (pairs fuel [] rest).map fun (entries, rest) => (.record (Node.toFields entries), rest)
    else
      match c :: rest with
      | 't' :: 'r' :: 'u' :: 'e' :: rest => some (.boolean true, rest)
      | 'f' :: 'a' :: 'l' :: 's' :: 'e' :: rest => some (.boolean false, rest)
      | text => dateOrNumber? text

/-- The rest of a list; a comma may follow the last item. -/
def items : Nat → List Char → Option (List (Datum φ) × List Char)
  | 0, _ => none
  | fuel + 1, text =>
    match skipAll text with
    | ']' :: rest => some ([], rest)
    | text =>
      match value? fuel text with
      | none => none
      | some (item, rest) =>
        match skipAll rest with
        | ',' :: rest => (items fuel rest).map fun (more, rest) => (item :: more, rest)
        | ']' :: rest => some ([item], rest)
        | _ => none

/-- The rest of a table on one line, which has entries already. -/
def pairs : Nat → List (String × Node φ) → List Char →
    Option (List (String × Node φ) × List Char)
  | 0, _, _ => none
  | fuel + 1, entries, text =>
    match pair? fuel text with
    | none => none
    | some (key, value, rest) =>
      match Node.define key value entries with
      | none => none
      | some entries =>
        match skipBlanks rest with
        | ',' :: rest => pairs fuel entries rest
        | '\x7d' :: rest => some (entries, rest)
        | _ => none

/-- A key and its value. -/
def pair? : Nat → List Char → Option (List String × Datum φ × List Char)
  | 0, _ => none
  | fuel + 1, text =>
    match key? fuel text with
    | some (key, '=' :: rest) =>
      (value? fuel (skipBlanks rest)).map fun (value, rest) => (key, value, rest)
    | _ => none

end

/-! ## Lines -/

/-- What a line says. -/
inductive Line (φ : Type) where
  | header (path : List String)
  | repeatedHeader (path : List String)
  | entry (key : List String) (value : Datum φ)

/-- What a line says, and the rest behind it. -/
def line? (text : List Char) : Option (Line φ × List Char) :=
  let fuel := 2 * text.length + 2
  match text with
  | '[' :: '[' :: rest =>
    match key? fuel rest with
    | some (path, ']' :: ']' :: rest) => some (.repeatedHeader path, rest)
    | _ => none
  | '[' :: rest =>
    match key? fuel rest with
    | some (path, ']' :: rest) => some (.header path, rest)
    | _ => none
  | _ => (pair? fuel text).map fun (key, value, rest) => (.entry key value, rest)

/-- What has been read: the root table, and the path of the table that keys go
to. -/
structure Filled (φ : Type) where
  entries : List (String × Node φ)
  current : List String

/-- The document after one more line. -/
def Filled.take (filled : Filled φ) : Line φ → Option (Filled φ)
  | .header path =>
    (Node.within (Node.openTable (path.getLast?.getD "")) path.dropLast filled.entries).map
      fun entries => ⟨entries, path⟩
  | .repeatedHeader path =>
    (Node.within (Node.appendTable (path.getLast?.getD "")) path.dropLast filled.entries).map
      fun entries => ⟨entries, path⟩
  | .entry key value =>
    (Node.within (Node.define key value) filled.current filled.entries).map
      fun entries => ⟨entries, filled.current⟩

/-- Reads line after line; only a comment may follow on the same line. -/
def lines : Nat → Filled φ → List Char → Option (Filled φ)
  | 0, _, _ => none
  | fuel + 1, filled, text =>
    match skipAll text with
    | [] => some filled
    | text =>
      match line? text with
      | none => none
      | some (line, rest) =>
        match filled.take line with
        | none => none
        | some filled =>
          match skipComment (skipBlanks rest) with
          | [] => some filled
          | rest =>
            match lineEnd? rest with
            | some rest => lines fuel filled rest
            | none => none

/-- The record that a TOML text denotes; a byte-order mark in front is no part
of it. -/
def read? (text : List Char) : Option (Datum φ) :=
  let body :=
    match text with
    | '\uFEFF' :: rest => rest
    | _ => text
  (lines (body.length + 1) ⟨[], []⟩ body).map fun filled => .record (Node.toFields filled.entries)

end ContextPack.Toml
