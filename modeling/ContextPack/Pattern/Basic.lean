import ContextPack.Text.Blank

/-!
# Text patterns

Patterns over characters with the usual operators and one captured group.  Of
the ways in which a pattern fits at a place `fit` finds the preferred one: of
alternatives the earlier, of repetitions the longer (or, if lazy, the shorter),
as long as what comes after it fits too.
-/

namespace ContextPack

inductive Pattern where
  | empty
  | char (test : Char → Bool)
  /-- The start of a line. -/
  | lineStart
  /-- Between a character of a word and one of no word. -/
  | wordEdge
  | seq (first second : Pattern)
  | alt (first second : Pattern)
  /-- As often as possible. -/
  | many (pattern : Pattern)
  /-- As rarely as possible. -/
  | lazyMany (pattern : Pattern)
  /-- Remembers what it fits. -/
  | capture (pattern : Pattern)

namespace Pattern

/-- A place in a text. -/
structure Place where
  /-- The character before. -/
  previous : Option Char
  rest : List Char
  /-- How many characters are left. -/
  left : Nat

def Place.start (text : List Char) : Place := ⟨none, text, text.length⟩

def Place.next? (place : Place) : Option (Char × Place) :=
  match place.rest with
  | [] => none
  | c :: rest => some (c, ⟨some c, rest, place.left - 1⟩)

/-- A place reached and the group captured on the way. -/
structure Match where
  place : Place
  captured : Option (List Char)

/-- One after the other. -/
def all (patterns : List Pattern) : Pattern := patterns.foldr seq empty

/-- The first that fits. -/
def any : List Pattern → Pattern
  | [] => char fun _ => false
  | [pattern] => pattern
  | pattern :: rest => alt pattern (any rest)

def atLeastOnce (pattern : Pattern) : Pattern := seq pattern (many pattern)

def optional (pattern : Pattern) : Pattern := alt pattern empty

/-- A fixed text. -/
def text (letters : String) : Pattern :=
  all (letters.toList.map fun letter => char (· = letter))

/-- Any of several fixed texts. -/
def oneOf (texts : List String) : Pattern := any (texts.map text)

def blank : Pattern := char Text.isBlank

/-- What a rest of a pattern makes of a match. -/
abbrev Rest := Match → Option Match

/-- Whether a match lies behind another one. -/
def Match.isBehind (later earlier : Match) : Bool := later.place.left < earlier.place.left

/-- Repeats a step before the rest, as often as possible. -/
def greedy (step : Rest → Rest) (rest : Rest) : Nat → Rest
  | 0, found => rest found
  | fuel + 1, found =>
    let again : Rest := fun later =>
      if later.isBehind found then greedy step rest fuel later else none
    match step again found with
    | some final => some final
    | none => rest found

/-- Repeats a step before the rest, as rarely as possible. -/
def lazily (step : Rest → Rest) (rest : Rest) : Nat → Rest
  | 0, found => rest found
  | fuel + 1, found =>
    match rest found with
    | some final => some final
    | none =>
      step (fun later => if later.isBehind found then lazily step rest fuel later else none) found

/-- The preferred way to fit a pattern after a match and then the rest;
`isWord` tells the characters of words. -/
def fit (isWord : Char → Bool) : Pattern → Rest → Rest
  | empty, rest, found => rest found
  | char test, rest, found =>
    match found.place.next? with
    | some (c, place) => if test c then rest { found with place } else none
    | none => none
  | lineStart, rest, found =>
    match found.place.previous with
    | none => rest found
    | some c => if c = '\n' then rest found else none
  | wordEdge, rest, found =>
    let before := (found.place.previous.map isWord).getD false
    let after := (found.place.rest.head?.map isWord).getD false
    if before = after then none else rest found
  | seq first second, rest, found => fit isWord first (fit isWord second rest) found
  | alt first second, rest, found =>
    match fit isWord first rest found with
    | some final => some final
    | none => fit isWord second rest found
  | many pattern, rest, found => greedy (fit isWord pattern) rest found.place.left found
  | lazyMany pattern, rest, found => lazily (fit isWord pattern) rest found.place.left found
  | capture pattern, rest, found =>
    let keep (later : Match) : Match :=
      ⟨later.place, some (found.place.rest.take (found.place.left - later.place.left))⟩
    fit isWord pattern (fun later => rest (keep later)) found

def matchAt (isWord : Char → Bool) (pattern : Pattern) (place : Place) : Option Match :=
  fit isWord pattern some ⟨place, none⟩

/-- Where the search goes on after looking at a place: behind what was found,
or one character further if that is nothing or empty. -/
def Place.after? (place : Place) (found : Option Match) : Option Place :=
  match found with
  | some found =>
    if found.place.left < place.left then some found.place else place.next?.map Prod.snd
  | none => place.next?.map Prod.snd

/-- All matches from left to right, none overlapping another. -/
def search (isWord : Char → Bool) (pattern : Pattern) : Nat → Place → List Match
  | 0, _ => []
  | fuel + 1, place =>
    let found := matchAt isWord pattern place
    let onwards : List Match :=
      match place.after? found with
      | some next => search isWord pattern fuel next
      | none => []
    found.toList ++ onwards

/-- What the group captures in each match. -/
def captures (isWord : Char → Bool) (pattern : Pattern) (text : List Char) : List (List Char) :=
  (search isWord pattern (text.length + 1) (.start text)).map fun found =>
    found.captured.getD []

end Pattern

end ContextPack
