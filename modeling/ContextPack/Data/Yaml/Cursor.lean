/-!
# Places in a YAML text

A YAML text is read from the front, and where a character stands in its line
decides what it means.
-/

namespace ContextPack.Yaml

/-- A place in a text: what follows, and where it is. -/
structure Cursor where
  rest : List Char
  /-- Characters before the place. -/
  index : Nat := 0
  line : Nat := 0
  /-- Characters before the place on its line. -/
  column : Nat := 0

/-- A blank within a line. -/
def isBlank (c : Char) : Bool := c == ' ' || c == '\t'

/-- A character that ends a line. -/
def isBreak (c : Char) : Bool :=
  c == '\n' || c == '\r' || c == '\u0085' || c == '\u2028' || c == '\u2029'

/-- Whether a character may stand in a text at all. -/
def isAllowed (c : Char) : Bool :=
  let code := c.toNat
  code == 9 || code == 10 || code == 13 || (32 ≤ code && code ≤ 126) || code == 0x85 ||
    (0xA0 ≤ code && code != 0xFFFE && code != 0xFFFF)

namespace Cursor

def head? (cursor : Cursor) : Option Char := cursor.rest.head?

/-- Whether a character stands here. -/
def isAt (cursor : Cursor) (c : Char) : Bool := cursor.head? == some c

/-- Whether so many characters on the text, a line or the text ends. -/
def endsLineAt (cursor : Cursor) (offset : Nat) : Bool :=
  match cursor.rest[offset]? with
  | none => true
  | some c => isBreak c

/-- Whether so many characters on a blank or the end of a line stands. -/
def isBlankAt (cursor : Cursor) (offset : Nat) : Bool :=
  match cursor.rest[offset]? with
  | none => true
  | some c => isBlank c || isBreak c

/-- Past one character of the line. -/
def next (cursor : Cursor) : Cursor :=
  { rest := cursor.rest.tail, index := cursor.index + 1, line := cursor.line
    column := cursor.column + 1 }

/-- Past so many characters of the line. -/
def skip : Nat → Cursor → Cursor
  | 0, cursor => cursor
  | count + 1, cursor => skip count cursor.next

/-- Past the end of a line, with the characters it counts for. -/
def takeBreak (cursor : Cursor) : List Char × Cursor :=
  let past (length : Nat) : Cursor :=
    { rest := cursor.rest.drop length, index := cursor.index + length, line := cursor.line + 1
      column := 0 }
  match cursor.rest with
  | '\r' :: '\n' :: _ => (['\n'], past 2)
  | '\u2028' :: _ => (['\u2028'], past 1)
  | '\u2029' :: _ => (['\u2029'], past 1)
  | [] => ([], cursor)
  | _ => (['\n'], past 1)

/-- Past the characters of the line for which `stays` holds, with them. -/
def takeWhile (stays : Char → Bool) (cursor : Cursor) : List Char × Cursor :=
  let taken := cursor.rest.takeWhile stays
  (taken,
   { rest := cursor.rest.drop taken.length, index := cursor.index + taken.length
     line := cursor.line, column := cursor.column + taken.length })

/-- Past the blanks here. -/
def skipBlanks (cursor : Cursor) : Cursor := (cursor.takeWhile isBlank).2

/-- Up to the end of the line. -/
def skipLine (cursor : Cursor) : Cursor := (cursor.takeWhile fun c => !isBreak c).2

/-- Past a comment, if one stands here. -/
def skipComment (cursor : Cursor) : Cursor :=
  if cursor.isAt '#' then cursor.skipLine else cursor

/-- Whether three of a character stand at the start of the line, and nothing
else before a blank. -/
def isMark (cursor : Cursor) (c : Char) : Bool :=
  cursor.column == 0 && cursor.rest.take 3 == [c, c, c] && cursor.isBlankAt 3

/-- Whether a document begins or ends here. -/
def isDocumentMark (cursor : Cursor) : Bool := cursor.isMark '-' || cursor.isMark '.'

end Cursor

end ContextPack.Yaml
