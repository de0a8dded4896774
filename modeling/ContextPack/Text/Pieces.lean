/-!
# Pieces of a text

Cutting a text at a separator, putting pieces together again and looking for
one text inside another.
-/

namespace ContextPack.Text

/-- The pieces between separators: one more than there are separators. -/
def pieces (separator : Char) : List Char → List (List Char)
  | [] => [[]]
  | c :: rest =>
    if c = separator then [] :: pieces separator rest
    else match pieces separator rest with
      | [] => [[c]]
      | piece :: others => (c :: piece) :: others

/-- Pieces with a separator between every two. -/
def joinWith (separator : List Char) : List (List Char) → List Char
  | [] => []
  | [piece] => piece
  | piece :: others => piece ++ separator ++ joinWith separator others

/-- What follows a text that stands in front. -/
def stripStart? : List Char → List Char → Option (List Char)
  | [], text => some text
  | _ :: _, [] => none
  | c :: front, d :: text => if c = d then stripStart? front text else none

def startsWith (front text : List Char) : Bool :=
  (stripStart? front text).isSome

def endsWith (back text : List Char) : Bool :=
  startsWith back.reverse text.reverse

/-- Whether a text holds another one as a contiguous part. -/
def holds (part : List Char) : List Char → Bool
  | [] => part.isEmpty
  | c :: rest => startsWith part (c :: rest) || holds part rest

/-- The texts before and after the first place where a part stands. -/
def splitFirst? (part : List Char) : List Char → Option (List Char × List Char)
  | [] => if part.isEmpty then some ([], []) else none
  | c :: rest =>
    match stripStart? part (c :: rest) with
    | some after => some ([], after)
    | none => (splitFirst? part rest).map fun (before, after) => (c :: before, after)

/-- What stands before and after the last separator. -/
def splitLast? (separator : Char) : List Char → Option (List Char × List Char)
  | [] => none
  | c :: rest =>
    match splitLast? separator rest with
    | some (before, after) => some (c :: before, after)
    | none => if c = separator then some ([], rest) else none

/-- ASCII capitals made small; other characters stay. -/
def lowerAscii (text : List Char) : List Char := text.map Char.toLower

/-- ASCII capitals made small; other characters stay. -/
def lowercase (text : String) : String := String.ofList (lowerAscii text.toList)

/-- Byte order of UTF-8 texts, which is the order of their scalar values. -/
def order (a b : String) : Ordering := compareOfLessAndEq a b

/-- Whether a text does not come after another one. -/
def le (a b : String) : Bool := order a b != .gt

/-- Merges a text into a strictly ascending list, once. -/
def insertOnce (text : String) : List String → List String
  | [] => [text]
  | head :: rest =>
    match order text head with
    | .lt => text :: head :: rest
    | .eq => head :: rest
    | .gt => head :: insertOnce text rest

/-- Equal neighbours of a sorted list reduced to one. -/
def dropRepeats : List String → List String
  | [] => []
  | [text] => [text]
  | first :: second :: rest =>
    if first = second then dropRepeats (second :: rest)
    else first :: dropRepeats (second :: rest)

def distinctSorted (texts : List String) : List String :=
  dropRepeats (texts.mergeSort le)

end ContextPack.Text
