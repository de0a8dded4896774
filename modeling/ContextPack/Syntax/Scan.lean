import ContextPack.Syntax.Rule
import ContextPack.Text.Blank

/-!
# Token scanners

Scanners shared by the grammars: words, operators, comments and quoted texts.
A character outside ASCII that is no blank counts as a letter.
-/

namespace ContextPack.Syntax.Scan

def isLetter (c : Char) : Bool :=
  c.isAlpha || c == '_' || (128 ≤ c.toNat && !Text.isBlank c && c != '\uFEFF')

def isWordChar (c : Char) : Bool := isLetter c || c.isDigit

/-- The length of the part in front whose characters pass a test. -/
def spanLength (test : Char → Bool) : List Char → Nat
  | [] => 0
  | c :: rest => if test c then spanLength test rest + 1 else 0

/-- A word, whatever it is. -/
def word (isFirst isLater : Char → Bool) : Scan
  | [] => none
  | c :: rest => if isFirst c then some (spanLength isLater rest + 1) else none

/-- A word that is none of the reserved ones. -/
def name (reserved : List (List Char)) (isFirst isLater : Char → Bool) : Scan := fun text =>
  match word isFirst isLater text with
  | none => none
  | some count => if reserved.contains (text.take count) then none else some count

/-- Whether a text starts with another one. -/
def startsWith : List Char → List Char → Bool
  | [], _ => true
  | _ :: _, [] => false
  | c :: front, d :: text => c == d && startsWith front text

/-- A fixed text. -/
def exactly (front : List Char) : Scan := fun text =>
  if startsWith front text then some front.length else none

/-- A fixed word. -/
def keyword (isLater : Char → Bool) (letters : List Char) : Scan := fun text =>
  if startsWith letters text then
    match text.drop letters.length with
    | c :: _ => if isLater c then none else some letters.length
    | [] => some letters.length
  else none

/-- An operator that is not the start of a longer one. -/
def operator (operators : List (List Char)) (sign : List Char) : Scan :=
  let longer := operators.filter fun other =>
    sign.length < other.length && startsWith sign other
  fun text =>
    if startsWith sign text then
      if longer.any fun other => startsWith other text then none else some sign.length
    else none

/-- A word or a single character, whatever it is. -/
def anything : Scan
  | [] => none
  | c :: rest => if isWordChar c then some (spanLength isWordChar rest + 1) else some 1

/-- The end of the text. -/
def atEnd : Scan
  | [] => some 0
  | _ :: _ => none

/-- Characters up to the end of the line. -/
def lineLength (text : List Char) : Nat := spanLength (fun c => c != '\n') text

/-- Characters up to and with a closing text, or all of them. -/
def lengthThrough (close : List Char) : List Char → Nat
  | [] => 0
  | c :: rest =>
    if startsWith close (c :: rest) then close.length
    else lengthThrough close rest + 1

/-- The rest of a quoted text up to and with its closing quotes; a backslash
takes the next character with it. -/
def quotedRest (close : List Char) : List Char → Nat
  | [] => 0
  | '\\' :: _ :: rest => quotedRest close rest + 2
  | c :: rest =>
    if startsWith close (c :: rest) then close.length
    else quotedRest close rest + 1

/-- A quoted text that begins and ends with the same quotes. -/
def quoted (quotes : List Char) : Scan := fun text =>
  if startsWith quotes text then
    some (quotes.length + quotedRest quotes (text.drop quotes.length))
  else none

/-- The first of several scanners that fits. -/
def first (scans : List Scan) : Scan := fun text => scans.findSome? fun scan => scan text

private def isDigitOrGap (c : Char) : Bool := c.isDigit || c == '_'

/-- The length of an exponent part, if one stands here. -/
def exponentLength : List Char → Nat
  | mark :: rest =>
    if mark == 'e' || mark == 'E' then
      match rest with
      | sign :: digit :: _ =>
        if (sign == '+' || sign == '-') && digit.isDigit then
          2 + spanLength isDigitOrGap (rest.drop 1)
        else if sign.isDigit then 1 + spanLength isDigitOrGap rest
        else 0
      | [digit] => if digit.isDigit then 2 else 0
      | [] => 0
    else 0
  | [] => 0

/-- The length of a point with digits after it.  A point belongs to a number
unless a letter or another point follows. -/
def fractionLength : List Char → Nat
  | '.' :: rest =>
    match rest with
    | c :: _ =>
      if c.isDigit then 1 + spanLength isDigitOrGap rest
      else if isLetter c || c == '.' then 0
      else 1
    | [] => 1
  | _ => 0

/-- A number literal with its suffix letters. -/
def number : Scan := fun text =>
  match text with
  | '0' :: mark :: _ =>
    if "xXbBoO".toList.contains mark then some (spanLength isWordChar text) else decimal text
  | '.' :: digit :: _ => if digit.isDigit then decimal text else none
  | digit :: _ => if digit.isDigit then decimal text else none
  | [] => none
where
  /-- A number in decimal digits. -/
  decimal (text : List Char) : Option Nat :=
    let whole := spanLength isDigitOrGap text
    let afterWhole := text.drop whole
    let fraction := fractionLength afterWhole
    let afterFraction := afterWhole.drop fraction
    let exponent := exponentLength afterFraction
    let suffix := spanLength isWordChar (afterFraction.drop exponent)
    some (whole + fraction + exponent + suffix)

/-- Where a gap between two tokens stands: between comments, in one that ends
with its line, or in one with brackets, so many of which are open inside it. -/
inductive Gap where
  | between
  | line
  | block (depth : Nat)
  /-- Right after the first sign of a bracket inside a comment. -/
  | opening (depth : Nat)

/-- The length of a gap made of blanks and two forms of comments: up to the
line end, and between brackets, which may nest. -/
def gapLength (isBlank : Char → Bool) (nests : Bool) : Gap → List Char → Nat
  | _, [] => 0
  | .between, '/' :: '/' :: rest => gapLength isBlank nests .line rest + 2
  | .between, '/' :: '*' :: rest => gapLength isBlank nests (.block 0) rest + 2
  | .between, c :: rest => if isBlank c then gapLength isBlank nests .between rest + 1 else 0
  | .line, c :: rest =>
    if c != '\n' then gapLength isBlank nests .line rest + 1
    else if isBlank c then gapLength isBlank nests .between rest + 1
    else 0
  | .block 0, '*' :: '/' :: rest => gapLength isBlank nests .between rest + 2
  | .block (outer + 1), '*' :: '/' :: rest => gapLength isBlank nests (.block outer) rest + 2
  | .block depth, c :: rest =>
    let opens := nests && c == '/' && startsWith ['*'] rest
    gapLength isBlank nests (if opens then .opening (depth + 1) else .block depth) rest + 1
  | .opening depth, _ :: rest => gapLength isBlank nests (.block depth) rest + 1

/-- What is passed over in a language whose comments begin with a slash. -/
def slashTrivia (isBlank : Char → Bool) (nests : Bool) (text : List Char) : Nat × Bool :=
  let length := gapLength isBlank nests .between text
  (length, (text.take length).contains '/')

/-- Whether no line end stands before the next token. -/
def sameLine : List Char → Bool
  | [] => true
  | c :: rest => if c == '\n' then false else if Text.isBlank c then sameLine rest else true

end ContextPack.Syntax.Scan
