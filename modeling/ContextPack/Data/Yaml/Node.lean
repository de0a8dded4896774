import ContextPack.Data.Datum
import ContextPack.Data.RealLiteral
import ContextPack.Data.Yaml.Token

/-!
# YAML documents

Reads the value of a YAML text from its tokens.  What a plain text stands for
is told by its spelling; a text in quotes is always a text.  A mapping with a
key that is no text is no record, and stands as the list of its pairs.
-/

namespace ContextPack.Yaml

variable {φ : Type} [RealLiteral φ]

/-! ## Scalars -/

/-- Digits with a zero in front, which are no number. -/
def isPaddedZero (text : List Char) : Bool :=
  match (RealLiteral.takeSign text).2 with
  | '0' :: rest => !rest.isEmpty && rest.all Char.isDigit
  | _ => false

def digitsIn? (base : Nat) (text : List Char) : Option Nat :=
  let digit? (c : Char) : Option Nat :=
    match hexNumber? 1 [c] with
    | some value => if value < base then some value else none
    | none => none
  if text.isEmpty then none
  else (text.mapM digit?).map fun digits => digits.foldl (fun value digit => base * value + digit) 0

/-- The size of a whole number after its sign; a mark in front names a base. -/
def magnitude? : List Char → Option Nat
  | '0' :: 'x' :: rest => digitsIn? 16 rest
  | '0' :: 'o' :: rest => digitsIn? 8 rest
  | '0' :: 'b' :: rest => digitsIn? 2 rest
  | text => digitsIn? 10 text

def wholeNumber? (text : List Char) : Option Int :=
  if isPaddedZero text then none
  else
    let (negative, body) := RealLiteral.takeSign text
    (magnitude? body).map fun size => if negative then -(size : Int) else size

/-- The real that a text spells, which is finite unless a word says otherwise. -/
def realNumber? (text : List Char) : Option φ :=
  let (negative, body) := RealLiteral.takeSign text
  let word := String.ofList body
  if [".inf", ".Inf", ".INF"].contains word then some (RealLiteral.infinity negative)
  else if [".nan", ".NaN", ".NAN"].contains (String.ofList text) then some RealLiteral.notANumber
  else if isPaddedZero text then none
  else
    match RealLiteral.ofDigits? text with
    | some value => if RealLiteral.isInfinite value then none else some value
    | none => none

/-- The value of a plain text.  Whole numbers beyond 64 bits, up to 128 of them,
are none. -/
def plainDatum? (text : String) : Option (Datum φ) :=
  if ["", "null", "Null", "NULL", "~"].contains text then some .null
  else if ["true", "True", "TRUE"].contains text then some (.boolean true)
  else if ["false", "False", "FALSE"].contains text then some (.boolean false)
  else
    let whole := wholeNumber? text.toList
    match whole with
    | some value =>
      if -9223372036854775808 ≤ value && value ≤ 18446744073709551615 then some (.integer value)
      else if -170141183460469231731687303715884105728 ≤ value &&
          value ≤ 340282366920938463463374607431768211455 then none
      else
        match realNumber? text.toList with
        | some real => some (.real real)
        | none => some (.text text)
    | none =>
      match realNumber? text.toList with
      | some real => some (.real real)
      | none => some (.text text)

/-- The value of a text with a tag: the tags of the basic types ask for a
spelling, other tags say nothing. -/
def taggedDatum? (tag : Option String) (text : String) (isPlain : Bool) : Option (Datum φ) :=
  let value : Option (Datum φ) := plainDatum? text
  match tag with
  | some "!!str" => some (.text text)
  | some "!!bool" =>
    match value with
    | some (.boolean flag) => some (.boolean flag)
    | _ => none
  | some "!!int" =>
    match value with
    | some (.integer number) => some (.integer number)
    | _ => none
  | some "!!float" => (realNumber? text.toList).map Datum.real
  | some "!!null" =>
    match value with
    | some .null => some .null
    | _ => none
  | _ => if isPlain then value else some (.text text)

/-! ## Collections -/

def sameKey : Datum φ → Datum φ → Bool
  | .text a, .text b => a == b
  | .integer a, .integer b => a == b
  | .boolean a, .boolean b => a == b
  | .null, .null => true
  | _, _ => false

/-- The fields of pairs whose keys are all texts. -/
def fieldsOf? : List (Datum φ × Datum φ) → Option (List (String × Datum φ))
  | [] => some []
  | (.text name, value) :: rest => (fieldsOf? rest).map fun fields => (name, value) :: fields
  | _ :: _ => none

/-- Whether some key occurs twice. -/
def repeatsKey : List (Datum φ × Datum φ) → Bool
  | [] => false
  | (key, _) :: rest => rest.any (fun pair => sameKey key pair.1) || repeatsKey rest

/-- The value of a mapping; no key may occur twice. -/
def mappingDatum? (pairs : List (Datum φ × Datum φ)) : Option (Datum φ) :=
  if repeatsKey pairs then none
  else
    match fieldsOf? pairs with
    | some fields => some (.record fields)
    | none => some (.list (pairs.map fun (key, value) => .list [key, value]))

/-! ## Nodes -/

/-- Tokens ahead, and the nodes that have names. -/
structure Reader (φ : Type) where
  tokens : List Token
  names : List (String × Datum φ)

namespace Reader

def head? (reader : Reader φ) : Option Token := reader.tokens.head?

def next (reader : Reader φ) : Reader φ := { reader with tokens := reader.tokens.tail }

/-- Whether one of some tokens comes next, or none at all. -/
def isAt (reader : Reader φ) (tokens : List Token) : Bool :=
  match reader.head? with
  | none => true
  | some token => tokens.contains token

/-- What is said of a node in front of it: a name and a tag, each at most
once. -/
def properties : Nat → Option String → Option String → Reader φ →
    Option String × Option String × Reader φ
  | 0, anchor, tag, reader => (anchor, tag, reader)
  | fuel + 1, anchor, tag, reader =>
    match reader.head?, anchor, tag with
    | some (.anchor name), none, _ => properties fuel (some name) tag reader.next
    | some (.tag text), _, none => properties fuel anchor (some text) reader.next
    | _, _, _ => (anchor, tag, reader)

/-- The node of a name, the latest of several. -/
def named? (reader : Reader φ) (name : String) : Option (Datum φ) :=
  (reader.names.find? fun item => item.1 == name).map Prod.snd

def nameNode (reader : Reader φ) (anchor : Option String) (value : Datum φ) : Reader φ :=
  match anchor with
  | some name => { reader with names := (name, value) :: reader.names }
  | none => reader

mutual

/-- A node.  Blocks are accepted if `inBlock` holds, and a sequence that is no
deeper than the mapping around it if `indentless` holds. -/
def node : Nat → (inBlock indentless : Bool) → Reader φ → Option (Datum φ × Reader φ)
  | 0, _, _, _ => none
  | fuel + 1, inBlock, indentless, reader =>
    match reader.head? with
    | some (.reference name) => (reader.named? name).map fun value => (value, reader.next)
    | _ =>
      let (anchor, tag, reader) := properties 2 none none reader
      let read : Option (Datum φ × Reader φ) :=
        match reader.head? with
        | some .item =>
          if indentless then
            (sequence fuel true reader).map fun (items, reader) => (.list items, reader)
          else if anchor.isSome || tag.isSome then
            (taggedDatum? tag "" true).map fun value => (value, reader)
          else none
        | some (.scalar text isPlain) =>
          (taggedDatum? tag text isPlain).map fun value => (value, reader.next)
        | some .flowSequence =>
          (flowItems fuel true reader.next).map fun (items, reader) => (.list items, reader)
        | some .flowMapping =>
          match flowPairs fuel true reader.next with
          | some (pairs, reader) => (mappingDatum? pairs).map fun value => (value, reader)
          | none => none
        | token =>
          if inBlock && token == some .blockSequence then
            (sequence fuel false reader.next).map fun (items, reader) => (.list items, reader)
          else if inBlock && token == some .blockMapping then
            match mapping fuel reader.next with
            | some (pairs, reader) => (mappingDatum? pairs).map fun value => (value, reader)
            | none => none
          else if anchor.isSome || tag.isSome then
            (taggedDatum? tag "" true).map fun value => (value, reader)
          else none
      read.map fun (value, reader) => (value, reader.nameNode anchor value)

/-- A node unless one of some tokens comes next, which leaves an empty one. -/
def nodeUnless : Nat → (inBlock indentless : Bool) → List Token → Reader φ →
    Option (Datum φ × Reader φ)
  | 0, _, _, _, _ => none
  | fuel + 1, inBlock, indentless, tokens, reader =>
    if reader.isAt tokens then some (.null, reader) else node fuel inBlock indentless reader

/-- The items of a block sequence.  One that is no deeper than what is around it
ends without a token. -/
def sequence : Nat → (indentless : Bool) → Reader φ → Option (List (Datum φ) × Reader φ)
  | 0, _, _ => none
  | fuel + 1, indentless, reader =>
    match reader.head? with
    | some .item =>
      let ends : List Token :=
        if indentless then [.item, .key, .value, .blockEnd] else [.item, .blockEnd]
      match nodeUnless fuel true false ends reader.next with
      | some (value, reader) =>
        (sequence fuel indentless reader).map fun (items, reader) => (value :: items, reader)
      | none => none
    | some .blockEnd => some ([], if indentless then reader else reader.next)
    | _ => if indentless then some ([], reader) else none

/-- The pairs of a block mapping. -/
def mapping : Nat → Reader φ → Option (List (Datum φ × Datum φ) × Reader φ)
  | 0, _ => none
  | fuel + 1, reader =>
    match reader.head? with
    | some .blockEnd => some ([], reader.next)
    | some .key =>
      let ends : List Token := [.key, .value, .blockEnd]
      match nodeUnless fuel true true ends reader.next with
      | none => none
      | some (key, reader) =>
        match mappedValue fuel true true ends reader with
        | none => none
        | some (value, reader) =>
          (mapping fuel reader).map fun (pairs, reader) => ((key, value) :: pairs, reader)
    | _ => none

/-- The value behind a colon; without a colon it is empty. -/
def mappedValue : Nat → (inBlock indentless : Bool) → List Token → Reader φ →
    Option (Datum φ × Reader φ)
  | 0, _, _, _, _ => none
  | fuel + 1, inBlock, indentless, ends, reader =>
    match reader.head? with
    | some .value => nodeUnless fuel inBlock indentless ends reader.next
    | _ => some (.null, reader)

/-- The items of a sequence in brackets; an item with a colon is a mapping of
one pair. -/
def flowItems : Nat → (first : Bool) → Reader φ → Option (List (Datum φ) × Reader φ)
  | 0, _, _ => none
  | fuel + 1, first, reader =>
    match reader.head? with
    | some .flowSequenceEnd => some ([], reader.next)
    | token =>
      if !first && token != some .comma then none
      else
        let reader := if first then reader else reader.next
        match reader.head? with
        | some .flowSequenceEnd => some ([], reader.next)
        | some .key =>
          match nodeUnless fuel false false [.value, .comma, .flowSequenceEnd] reader.next with
          | none => none
          | some (key, reader) =>
            match mappedValue fuel false false [.comma, .flowSequenceEnd] reader with
            | none => none
            | some (value, reader) =>
              match mappingDatum? [(key, value)] with
              | none => none
              | some item =>
                (flowItems fuel false reader).map fun (items, reader) => (item :: items, reader)
        | _ =>
          match node fuel false false reader with
          | none => none
          | some (item, reader) =>
            (flowItems fuel false reader).map fun (items, reader) => (item :: items, reader)

/-- The pairs of a mapping in braces. -/
def flowPairs : Nat → (first : Bool) → Reader φ → Option (List (Datum φ × Datum φ) × Reader φ)
  | 0, _, _ => none
  | fuel + 1, first, reader =>
    match reader.head? with
    | some .flowMappingEnd => some ([], reader.next)
    | token =>
      if !first && token != some .comma then none
      else
        let reader := if first then reader else reader.next
        match reader.head? with
        | some .flowMappingEnd => some ([], reader.next)
        | some .key =>
          match nodeUnless fuel false false [.value, .comma, .flowMappingEnd] reader.next with
          | none => none
          | some (key, reader) =>
            match mappedValue fuel false false [.comma, .flowMappingEnd] reader with
            | none => none
            | some (value, reader) =>
              (flowPairs fuel false reader).map fun (pairs, reader) => ((key, value) :: pairs, reader)
        | _ =>
          match node fuel false false reader with
          | none => none
          | some (key, reader) =>
            (flowPairs fuel false reader).map fun (pairs, reader) => ((key, .null) :: pairs, reader)

end

end Reader

/-! ## Documents -/

/-- What follows the directives in front of a document, all of which have to be
accepted. -/
def dropDirectives : List Token → Option (List Token)
  | .directive accepted :: rest => if accepted then dropDirectives rest else none
  | tokens => some tokens

/-- The tokens of the first document, and whether a mark announces it: directives
need a mark behind them. -/
def content? (tokens : List Token) : Option (Bool × List Token) :=
  match dropDirectives tokens with
  | none => none
  | some (.documentStart :: rest) => some (true, rest)
  | some rest => if rest.length = tokens.length then some (false, rest) else none

/-- The value that a YAML text denotes; an empty text denotes null.  There may
be only one document. -/
def read? (text : List Char) : Option (Datum φ) :=
  match (tokens? text).bind content? with
  | none => none
  | some (announced, tokens) =>
    let reader : Reader φ := ⟨tokens, []⟩
    let isEmpty := tokens.isEmpty || (announced && reader.isAt [.documentEnd, .documentStart])
    let read :=
      if isEmpty then some (.null, reader)
      else reader.node (4 * tokens.length + 4) true false
    match read with
    | some (value, rest) => if rest.tokens.all (· == .documentEnd) then some value else none
    | none => none

end ContextPack.Yaml
