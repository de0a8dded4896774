import ContextPack.Text.Utf8

/-!
# Globs

Patterns for paths.  A question mark stands for one byte, a star for any
number of them, and two stars between slashes for any number of directories.
Brackets hold a set of bytes and braces hold alternatives.  Whether a star goes
past a slash is up to the use.

A glob is matched piece by piece: each piece turns the ends that were reached
so far into the ends reached behind it.
-/

namespace ContextPack

/-- A part of a glob. -/
inductive GlobPiece where
  | exact (value : UInt8)
  | anyByte
  | anyBytes
  /-- Two stars at the front, with the slash after them. -/
  | leadingDirectories
  /-- Two stars at the end, with the slash before them. -/
  | trailingDirectories
  /-- Two stars with a slash on each side. -/
  | innerDirectories
  | set (negated : Bool) (ranges : List (UInt8 × UInt8))
  | choice (alternatives : List (List GlobPiece))

abbrev Glob := List GlobPiece

namespace GlobPiece

def slash : UInt8 := 47

/-- All ends of a text, the whole of it first. -/
def suffixes : List UInt8 → List (List UInt8)
  | [] => [[]]
  | byte :: rest => (byte :: rest) :: suffixes rest

/-- The ends that begin right after a slash. -/
def afterSlashes (text : List UInt8) : List (List UInt8) :=
  (suffixes text).filterMap fun rest =>
    match rest with
    | byte :: tail => if byte == slash then some tail else none
    | [] => none

/-- The ends up to which a run of bytes without a slash may reach. -/
def withinSegment : List UInt8 → List (List UInt8)
  | [] => [[]]
  | byte :: rest =>
    if byte == slash then [byte :: rest] else (byte :: rest) :: withinSegment rest

def inRanges (ranges : List (UInt8 × UInt8)) (byte : UInt8) : Bool :=
  ranges.any fun (low, high) => low ≤ byte && byte ≤ high

/-- Ends of one text, each once; they are told apart by their lengths. -/
def distinctEnds : List (List UInt8) → List (List UInt8)
  | [] => []
  | rest :: others =>
    let kept := distinctEnds others
    if kept.any fun other => other.length == rest.length then kept else rest :: kept

mutual

/-- What may be left of a text behind a piece.  The flag tells whether slashes
stop single stars and question marks. -/
def rests (slashStops : Bool) : GlobPiece → List UInt8 → List (List UInt8)
  | exact value, text =>
    match text with
    | first :: rest => if first == value then [rest] else []
    | [] => []
  | anyByte, text =>
    match text with
    | first :: rest => if slashStops && first == slash then [] else [rest]
    | [] => []
  | anyBytes, text => if slashStops then withinSegment text else suffixes text
  | leadingDirectories, text => distinctEnds (text :: afterSlashes text)
  | trailingDirectories, text =>
    match text with
    | first :: rest => if first == slash then suffixes rest else []
    | [] => []
  | innerDirectories, text =>
    match text with
    | first :: rest => if first == slash then distinctEnds (rest :: afterSlashes rest) else []
    | [] => []
  | set negated ranges, text =>
    match text with
    | first :: rest => if inRanges ranges first != negated then [rest] else []
    | [] => []
  | choice alternatives, text =>
    if alternatives.isEmpty then [text] else distinctEnds (restsOfAny slashStops alternatives text)

/-- What may be left behind one of several sequences of pieces. -/
def restsOfAny (slashStops : Bool) : List (List GlobPiece) → List UInt8 → List (List UInt8)
  | [], _ => []
  | pieces :: others, text =>
    restsOfAll slashStops pieces [text] ++ restsOfAny slashStops others text

/-- What may be left behind a sequence of pieces. -/
def restsOfAll (slashStops : Bool) : List GlobPiece → List (List UInt8) → List (List UInt8)
  | [], ends => ends
  | piece :: others, ends =>
    restsOfAll slashStops others (distinctEnds (ends.flatMap (rests slashStops piece)))

end

end GlobPiece

namespace Glob

def fits (slashStops : Bool) (glob : Glob) (path : List UInt8) : Bool :=
  match glob with
  | [.leadingDirectories] => true
  | pieces => (GlobPiece.restsOfAll slashStops pieces [path]).any List.isEmpty

/-! ## Reading -/

/-- Braces that are open: the pieces in front of them and the alternatives that
are finished, all innermost and latest first. -/
structure OpenChoice where
  before : List GlobPiece
  finished : List (List GlobPiece)

/-- How far reading has come. -/
structure Reader where
  /-- Pieces so far, the latest first. -/
  pieces : List GlobPiece
  opened : List OpenChoice

namespace Reader

def push (reader : Reader) (piece : GlobPiece) : Reader :=
  { reader with pieces := piece :: reader.pieces }

def pushText (reader : Reader) (text : List Char) : Reader :=
  (Utf8.encode text).foldl (fun reader value => reader.push (.exact value)) reader

/-- Replaces the latest piece by one for directories; two such pieces in a row
are one. -/
def pushDirectories (reader : Reader) (atEnd : Bool) : Reader :=
  match reader.pieces with
  | .leadingDirectories :: _ => reader
  | .trailingDirectories :: _ => reader
  | _ :: rest =>
    let piece : GlobPiece := if atEnd then .trailingDirectories else .innerDirectories
    { reader with pieces := piece :: rest }
  | [] => reader

/-- Closes the innermost braces. -/
def close? (reader : Reader) : Option Reader :=
  match reader.opened with
  | [] => none
  | choice :: outer =>
    let alternatives := (reader.pieces.reverse :: choice.finished).reverse
    some ⟨.choice (alternatives.filter fun pieces => !pieces.isEmpty) :: choice.before, outer⟩

end Reader

/-- The bytes that a range of characters stands for: those of either end, and
everything from the last byte of one to the first of the other. -/
def byteRanges (low high : Char) : List (UInt8 × UInt8) :=
  let single (byte : UInt8) := (byte, byte)
  if low = high then (Utf8.encode [low]).map single
  else
    match (Utf8.encode [low]).reverse, Utf8.encode [high] with
    | last :: before, first :: after => before.map single ++ (last, first) :: after.map single
    | _, _ => []

/-- The rest of a set behind its opening bracket: its ranges and what follows
the closing bracket.  The flags tell whether this is its first character and
whether a range is open. -/
def readSet : List Char → Bool → Bool → List (Char × Char) → Option (List (Char × Char) × List Char)
  | [], _, _, _ => none
  | c :: rest, isFirst, inRange, ranges =>
    if c = ']' && !isFirst then
      some ((if inRange then ('-', '-') :: ranges else ranges).reverse, rest)
    else if c = '-' && !isFirst && !inRange then readSet rest false true ranges
    else
      match inRange, ranges with
      | true, (low, _) :: others =>
        if c < low then none else readSet rest false false ((low, c) :: others)
      | _, _ => readSet rest false false ((c, c) :: ranges)

/-- Whether two stars may stand for directories after what is in front. -/
def mayBeginDirectories (reader : Reader) (previous : Option Char) : Bool :=
  previous == some '/' ||
    (!reader.opened.isEmpty && (previous == some ',' || previous == some '{'))

/-- Reads the rest of a glob; none if it is not well formed. -/
def readFrom : Nat → Option Char → Reader → List Char → Option Glob
  | 0, _, _, _ => none
  | fuel + 1, previous, reader, text =>
    match text with
    | [] => if reader.opened.isEmpty then some reader.pieces.reverse else none
    | '*' :: '*' :: rest =>
      let plain := readFrom fuel (some '*') ((reader.push .anyBytes).push .anyBytes) rest
      if reader.pieces.isEmpty then
        match rest with
        | [] => readFrom fuel (some '*') (reader.push .leadingDirectories) []
        | '/' :: tail => readFrom fuel (some '/') (reader.push .leadingDirectories) tail
        | _ => plain
      else if !mayBeginDirectories reader previous then plain
      else
        match rest with
        | [] => readFrom fuel (some '*') (reader.pushDirectories true) []
        | '/' :: tail => readFrom fuel (some '/') (reader.pushDirectories false) tail
        | c :: _ =>
          if (c = ',' || c = '}') && !reader.opened.isEmpty then
            readFrom fuel (some '*') (reader.pushDirectories true) rest
          else plain
    | '*' :: rest => readFrom fuel (some '*') (reader.push .anyBytes) rest
    | '?' :: rest => readFrom fuel (some '?') (reader.push .anyByte) rest
    | '[' :: rest =>
      let (negated, inside) :=
        match rest with
        | '!' :: tail => (true, tail)
        | '^' :: tail => (true, tail)
        | _ => (false, rest)
      match readSet inside true false [] with
      | some (ranges, tail) =>
        let bytes := ranges.flatMap fun (low, high) => byteRanges low high
        readFrom fuel (some ']') (reader.push (.set negated bytes)) tail
      | none => none
    | '{' :: rest => readFrom fuel (some '{') ⟨[], ⟨reader.pieces, []⟩ :: reader.opened⟩ rest
    | '}' :: rest =>
      match reader.close? with
      | some closed => readFrom fuel (some '}') closed rest
      | none => none
    | ',' :: rest =>
      match reader.opened with
      | [] => readFrom fuel (some ',') (reader.pushText [',']) rest
      | choice :: outer =>
        let finished := reader.pieces.reverse :: choice.finished
        readFrom fuel (some ',') ⟨[], ⟨choice.before, finished⟩ :: outer⟩ rest
    | ['\\'] => none
    | '\\' :: c :: rest => readFrom fuel (some c) (reader.pushText [c]) rest
    | c :: rest => readFrom fuel (some c) (reader.pushText [c]) rest

def read? (text : List Char) : Option Glob :=
  readFrom (text.length + 1) none ⟨[], []⟩ text

end Glob

end ContextPack
