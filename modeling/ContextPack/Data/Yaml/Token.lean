import ContextPack.Data.Yaml.Scalar

/-!
# YAML tokens

A YAML text as tokens.  Deeper columns open collections and shallower ones close
them, which tokens make explicit.  That a text is a key shows itself only at the
colon behind it, so the place before the text is remembered until then.
-/

namespace ContextPack.Yaml

inductive Token where
  | documentStart
  | documentEnd
  | directive (accepted : Bool)
  | blockSequence
  | blockMapping
  | blockEnd
  | flowSequence
  | flowSequenceEnd
  | flowMapping
  | flowMappingEnd
  /-- A dash. -/
  | item
  /-- A comma. -/
  | comma
  | key
  | value
  | reference (name : String)
  | anchor (name : String)
  | tag (text : String)
  | scalar (text : String) (isPlain : Bool)
deriving DecidableEq

/-- A place at which something began that a colon may yet make a key. -/
structure KeyPlace where
  /-- How many tokens stand before it. -/
  position : Nat
  index : Nat
  line : Nat
  column : Nat
  /-- Nothing but a key can stand there. -/
  required : Bool

/-- A text being cut into tokens. -/
structure Scanner where
  cursor : Cursor
  /-- The tokens so far, the last one first. -/
  tokens : List Token
  /-- The column of the innermost block collection, -1 outside of any. -/
  indent : Int
  /-- The columns of those around it. -/
  outer : List Int
  /-- A place for a key, for the innermost brackets and all around them; what
  stands outside of brackets comes last. -/
  keys : List (Option KeyPlace)
  /-- A key may begin here. -/
  keyAllowed : Bool

namespace Scanner

def start (text : List Char) : Scanner :=
  { cursor := { rest := text }, tokens := [], indent := -1, outer := [], keys := [none]
    keyAllowed := true }

/-- Whether the scanner is inside brackets. -/
def inFlow (scanner : Scanner) : Bool := 1 < scanner.keys.length

def push (scanner : Scanner) (token : Token) : Scanner :=
  { scanner with tokens := token :: scanner.tokens }

/-- A token, and so many characters passed. -/
def pushPast (scanner : Scanner) (length : Nat) (token : Token) : Scanner :=
  { scanner with tokens := token :: scanner.tokens, cursor := scanner.cursor.skip length }

def allow (scanner : Scanner) (allowed : Bool) : Scanner := { scanner with keyAllowed := allowed }

/-- Puts a token in after so many others. -/
def insertToken (scanner : Scanner) (position : Nat) (token : Token) : Scanner :=
  let after := scanner.tokens.length - position
  { scanner with tokens := scanner.tokens.take after ++ token :: scanner.tokens.drop after }

/-! ## Depth -/

/-- Closes block collections that are deeper than a column, at most `fuel` of
them. -/
def unrollFrom (column : Int) : Nat → Scanner → Scanner
  | 0, scanner => scanner
  | fuel + 1, scanner =>
    if column < scanner.indent then
      unrollFrom column fuel
        { scanner with
          tokens := .blockEnd :: scanner.tokens
          indent := scanner.outer.headD (-1)
          outer := scanner.outer.tail }
    else scanner

def unroll (scanner : Scanner) (column : Int) : Scanner :=
  if scanner.inFlow then scanner else unrollFrom column (scanner.outer.length + 1) scanner

/-- Opens a block collection at a column if it is deeper than the innermost one;
its token comes after so many others. -/
def roll (scanner : Scanner) (column position : Nat) (token : Token) : Scanner :=
  if !scanner.inFlow && scanner.indent < column then
    { scanner.insertToken position token with
      indent := column
      outer := scanner.indent :: scanner.outer }
  else scanner

/-- Opens a block collection here. -/
def rollHere (scanner : Scanner) (token : Token) : Scanner :=
  scanner.roll scanner.cursor.column scanner.tokens.length token

/-! ## Keys -/

/-- A key has to end on its line and soon. -/
def keyLength : Nat := 1024

/-- Whether a place is too far back for a key. -/
def isStale (cursor : Cursor) (place : KeyPlace) : Bool :=
  place.line < cursor.line || place.index + keyLength < cursor.index

/-- Gives up places that are too far back; none of them may be one where a key
is required. -/
def dropStale (scanner : Scanner) : Option Scanner :=
  let stale (place : Option KeyPlace) : Bool :=
    (place.map (isStale scanner.cursor)).getD false
  if scanner.keys.any fun place => stale place && (place.map KeyPlace.required).getD false then none
  else some { scanner with keys := scanner.keys.map fun place => if stale place then none else place }

/-- Gives up the innermost place. -/
def dropKey (scanner : Scanner) : Option Scanner :=
  match scanner.keys with
  | some place :: rest => if place.required then none else some { scanner with keys := none :: rest }
  | _ => some scanner

/-- Remembers this place if a key may begin here. -/
def saveKey (scanner : Scanner) : Option Scanner :=
  if !scanner.keyAllowed then some scanner
  else
    let cursor := scanner.cursor
    let place : KeyPlace :=
      { position := scanner.tokens.length, index := cursor.index, line := cursor.line
        column := cursor.column
        required := !scanner.inFlow && scanner.indent == (cursor.column : Int) }
    scanner.dropKey.map fun scanner =>
      { scanner with keys := some place :: scanner.keys.tail }

/-! ## Between tokens -/

/-- Past blanks, comments and line ends. -/
def skipGap : Nat → Scanner → Scanner
  | 0, scanner => scanner
  | fuel + 1, scanner =>
    let tabs := scanner.inFlow || !scanner.keyAllowed
    let cursor := (scanner.cursor.takeWhile fun c => c == ' ' || (tabs && c == '\t')).2.skipComment
    if (cursor.head?.map isBreak).getD false then
      skipGap fuel
        { scanner with
          cursor := cursor.takeBreak.2
          keyAllowed := scanner.keyAllowed || !scanner.inFlow }
    else { scanner with cursor }

/-! ## Tokens -/

def documentMark (scanner : Scanner) (token : Token) : Option Scanner :=
  (scanner.unroll (-1)).dropKey.map fun scanner => (scanner.pushPast 3 token).allow false

/-- Whether a directive is one that is understood or passed over: a version has
to be known. -/
def isAccepted (line : List Char) : Bool :=
  let words := ((String.ofList line).splitOn " ").filter fun word => word != ""
  match words with
  | "%YAML" :: version :: _ => version == "1.1" || version == "1.2"
  | "%YAML" :: [] => false
  | _ => true

def directive (scanner : Scanner) : Option Scanner :=
  (scanner.unroll (-1)).dropKey.map fun scanner =>
    let (line, past) := scanner.cursor.takeWhile fun c => !isBreak c
    { scanner with
      cursor := past, tokens := .directive (isAccepted line) :: scanner.tokens, keyAllowed := false }

def openBracket (scanner : Scanner) (token : Token) : Option Scanner :=
  scanner.saveKey.map fun scanner =>
    let opened := scanner.pushPast 1 token
    { opened with keys := none :: opened.keys, keyAllowed := true }

def closeBracket (scanner : Scanner) (token : Token) : Option Scanner :=
  scanner.dropKey.map fun scanner =>
    let closed := scanner.pushPast 1 token
    { closed with
      keys := if scanner.inFlow then closed.keys.tail else closed.keys
      keyAllowed := false }

def commaSign (scanner : Scanner) : Option Scanner :=
  scanner.dropKey.map fun scanner => (scanner.pushPast 1 .comma).allow true

/-- A dash, which outside of brackets opens a sequence if need be. -/
def dash (scanner : Scanner) : Option Scanner :=
  if !scanner.inFlow && !scanner.keyAllowed then none
  else
    (scanner.rollHere .blockSequence).dropKey.map fun scanner =>
      (scanner.pushPast 1 .item).allow true

/-- A question mark, which announces a key. -/
def keySign (scanner : Scanner) : Option Scanner :=
  if !scanner.inFlow && !scanner.keyAllowed then none
  else
    (scanner.rollHere .blockMapping).dropKey.map fun scanner =>
      (scanner.pushPast 1 .key).allow (!scanner.inFlow)

/-- A colon.  What began at the remembered place is its key. -/
def colon (scanner : Scanner) : Option Scanner :=
  match scanner.keys with
  | some place :: rest =>
    let keyed := (scanner.insertToken place.position .key).roll place.column place.position
      .blockMapping
    some (({ keyed with keys := none :: rest }.pushPast 1 .value).allow false)
  | _ =>
    if !scanner.inFlow && !scanner.keyAllowed then none
    else
      let rolled := scanner.rollHere .blockMapping
      some ((rolled.pushPast 1 .value).allow (!scanner.inFlow))

def isNameCharacter (c : Char) : Bool := c.isAlphanum || c == '_' || c == '-'

def endsName : Option Char → Bool
  | none => true
  | some c => isBlank c || isBreak c || ['?', ':', ',', ']', '\x7d', '%', '@', '\x60'].contains c

/-- A name for a node, or one used in its stead. -/
def named (scanner : Scanner) (token : String → Token) : Option Scanner :=
  scanner.saveKey.bind fun scanner =>
    let (name, past) := scanner.cursor.next.takeWhile isNameCharacter
    if name.isEmpty || !endsName past.head? then none
    else
      some { scanner with
        cursor := past
        tokens := token (String.ofList name) :: scanner.tokens
        keyAllowed := false }

/-- A tag, which says of what type a node is. -/
def tagged (scanner : Scanner) : Option Scanner :=
  scanner.saveKey.map fun scanner =>
    let (text, past) := scanner.cursor.takeWhile fun c =>
      !isBlank c && !isBreak c && !(scanner.inFlow && isFlowSign c)
    { scanner with
      cursor := past, tokens := .tag (String.ofList text) :: scanner.tokens, keyAllowed := false }

/-- Takes a text that was read. -/
def takeScalar (scanner : Scanner) (isPlain : Bool) (read : Option ReadScalar) : Option Scanner :=
  read.map fun read =>
    { scanner with
      cursor := read.cursor
      tokens := .scalar (String.ofList read.text) isPlain :: scanner.tokens
      keyAllowed := read.passedLine }

def blockText (scanner : Scanner) (literal : Bool) : Option Scanner :=
  scanner.dropKey.bind fun scanner =>
    scanner.takeScalar false (block literal scanner.indent scanner.cursor)

def quotedText (scanner : Scanner) (single : Bool) : Option Scanner :=
  scanner.saveKey.bind fun scanner => scanner.takeScalar false (quoted single scanner.cursor)

def plainText (scanner : Scanner) : Option Scanner :=
  scanner.saveKey.bind fun scanner =>
    scanner.takeScalar true (plain scanner.inFlow (scanner.indent + 1) scanner.cursor)

/-- Signs that no plain text begins with. -/
def signs : List Char :=
  ['-', '?', ':', ',', '[', ']', '\x7b', '\x7d', '#', '&', '*', '!', '|', '>', '\'', '"', '%', '@',
   '\x60']

/-- Whether a plain text may begin here. -/
def beginsPlain (scanner : Scanner) (c : Char) : Bool :=
  let blankNext := scanner.cursor.isBlankAt 1
  (!isBlank c && !signs.contains c) || (c == '-' && !blankNext) ||
    (!scanner.inFlow && (c == '?' || c == ':') && !blankNext)

/-- The token that begins here with a character. -/
def fetch (scanner : Scanner) (c : Char) : Option Scanner :=
  let cursor := scanner.cursor
  let blankNext := cursor.isBlankAt 1
  if cursor.column == 0 && c == '%' then scanner.directive
  else if cursor.isMark '-' then scanner.documentMark .documentStart
  else if cursor.isMark '.' then scanner.documentMark .documentEnd
  else if c == '[' then scanner.openBracket .flowSequence
  else if c == '\x7b' then scanner.openBracket .flowMapping
  else if c == ']' then scanner.closeBracket .flowSequenceEnd
  else if c == '\x7d' then scanner.closeBracket .flowMappingEnd
  else if c == ',' then scanner.commaSign
  else if c == '-' && blankNext then scanner.dash
  else if c == '?' && blankNext then scanner.keySign
  else if c == ':' && (scanner.inFlow || blankNext) then scanner.colon
  else if c == '*' then scanner.named .reference
  else if c == '&' then scanner.named .anchor
  else if c == '!' then scanner.tagged
  else if c == '|' && !scanner.inFlow then scanner.blockText true
  else if c == '>' && !scanner.inFlow then scanner.blockText false
  else if c == '\'' then scanner.quotedText true
  else if c == '"' then scanner.quotedText false
  else if scanner.beginsPlain c then scanner.plainText
  else none

/-- All tokens; the end of the text closes every block. -/
def run : Nat → Scanner → Option (List Token)
  | 0, _ => none
  | fuel + 1, scanner =>
    match (skipGap (scanner.cursor.rest.length + 1) scanner).dropStale with
    | none => none
    | some scanner =>
      let scanner := scanner.unroll scanner.cursor.column
      match scanner.cursor.head? with
      | none =>
        (scanner.unroll (-1)).dropKey.map fun scanner => scanner.tokens.reverse
      | some c =>
        match scanner.fetch c with
        | some next => run fuel next
        | none => none

end Scanner

/-- The tokens of a text; a byte-order mark in front is no part of it. -/
def tokens? (text : List Char) : Option (List Token) :=
  let body :=
    match text with
    | '\uFEFF' :: rest => rest
    | _ => text
  if body.all isAllowed then (Scanner.start body).run (body.length + 2) else none

end ContextPack.Yaml
