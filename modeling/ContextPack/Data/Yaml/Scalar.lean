import ContextPack.Data.Yaml.Cursor

/-!
# YAML scalars

The texts of a YAML document: plain, in quotes, or as a block of lines.  Within
a text that goes on over several lines a single line end counts for a blank,
except in a literal block.
-/

namespace ContextPack.Yaml

/-- A text that was read, and the place behind it. -/
structure ReadScalar where
  text : List Char
  cursor : Cursor
  /-- Line ends were passed behind the text. -/
  passedLine : Bool

/-- Blanks and line ends between two parts of a text. -/
structure Gap where
  blanks : List Char := []
  /-- The first line end; with one the blanks do not count. -/
  first : Option (List Char) := none
  /-- Further line ends. -/
  more : List Char := []

/-- What a gap counts for once the text goes on. -/
def Gap.folded (gap : Gap) : List Char :=
  match gap.first with
  | none => gap.blanks
  | some ['\n'] => if gap.more.isEmpty then [' '] else gap.more
  | some first => first ++ gap.more

def Gap.addBreak (gap : Gap) (lineEnd : List Char) : Gap :=
  match gap.first with
  | none => { blanks := [], first := some lineEnd, more := [] }
  | some _ => { gap with more := gap.more ++ lineEnd }

def Gap.addBlank (gap : Gap) (c : Char) : Gap :=
  if gap.first.isSome then gap else { gap with blanks := gap.blanks ++ [c] }

/-- Takes the blanks and line ends here.  `isMisplaced` tells of a blank that
may not stand where it does. -/
def takeGap (isMisplaced : Gap → Cursor → Bool) : Nat → Gap → Cursor → Option (Gap × Cursor)
  | 0, gap, cursor => some (gap, cursor)
  | fuel + 1, gap, cursor =>
    match cursor.head? with
    | none => some (gap, cursor)
    | some c =>
      if isBlank c then
        if isMisplaced gap cursor then none
        else takeGap isMisplaced fuel (gap.addBlank c) cursor.next
      else if isBreak c then
        let (lineEnd, past) := cursor.takeBreak
        takeGap isMisplaced fuel (gap.addBreak lineEnd) past
      else some (gap, cursor)

/-! ## Plain -/

/-- Characters that end a plain text inside brackets. -/
def isFlowSign (c : Char) : Bool := [',', '[', ']', '\x7b', '\x7d'].contains c

/-- How many characters of a plain text stand here before a blank or a sign. -/
def plainLength (inFlow : Bool) : List Char → Nat
  | [] => 0
  | c :: rest =>
    let ends := isBlank c || isBreak c || (inFlow && isFlowSign c) ||
      (c == ':' && (match rest with
        | [] => true
        | d :: _ => isBlank d || isBreak d))
    if ends then 0 else plainLength inFlow rest + 1

/-- Inside brackets a colon may not stand directly before another sign. -/
def hasStrayColon : List Char → Bool
  | ':' :: d :: rest => isFlowSign d || d == '?' || hasStrayColon (d :: rest)
  | _ :: rest => hasStrayColon rest
  | [] => false

/-- Reads a plain text whose lines are deeper than `indent`. -/
def plainFrom (inFlow : Bool) (indent : Int) : Nat → Gap → List Char → Cursor → Option ReadScalar
  | 0, _, _, _ => none
  | fuel + 1, gap, text, cursor =>
    let done : ReadScalar := ⟨text, cursor, gap.first.isSome⟩
    if cursor.isDocumentMark || cursor.isAt '#' then some done
    else
      let length := plainLength inFlow cursor.rest
      let part := cursor.rest.take length
      if inFlow && hasStrayColon (cursor.rest.take (length + 1)) then none
      else
        let joined := if part.isEmpty then text else text ++ gap.folded ++ part
        let past := cursor.skip length
        let unspent : Gap := if part.isEmpty then gap else {}
        let goesOn := match past.head? with
          | some c => isBlank c || isBreak c
          | none => false
        if !goesOn then some ⟨joined, past, unspent.first.isSome⟩
        else
          let isMisplaced (gap : Gap) (cursor : Cursor) : Bool :=
            gap.first.isSome && (cursor.column : Int) < indent && cursor.isAt '\t'
          match takeGap isMisplaced past.rest.length unspent past with
          | none => none
          | some (gap, next) =>
            if !inFlow && (next.column : Int) < indent then
              some ⟨joined, next, gap.first.isSome⟩
            else plainFrom inFlow indent fuel gap joined next

/-- The plain text that begins here. -/
def plain (inFlow : Bool) (indent : Int) (cursor : Cursor) : Option ReadScalar :=
  plainFrom inFlow indent (cursor.rest.length + 1) {} [] cursor

/-! ## Quoted -/

/-- The number that so many hexadecimal digits denote. -/
def hexNumber? (length : Nat) (text : List Char) : Option Nat :=
  let value? (c : Char) : Option Nat :=
    if c.isDigit then some (c.toNat - 48)
    else if 'a' ≤ c && c ≤ 'f' then some (c.toNat - 87)
    else if 'A' ≤ c && c ≤ 'F' then some (c.toNat - 55)
    else none
  match (text.take length).mapM value? with
  | some digits =>
    if digits.length = length then some (digits.foldl (fun value digit => 16 * value + digit) 0)
    else none
  | none => none

/-- The character of an escape and how many characters the escape has, its
backslash left out. -/
def escape? : List Char → Option (Char × Nat)
  | [] => none
  | mark :: digits =>
    let code? (length : Nat) : Option (Char × Nat) :=
      match hexNumber? length digits with
      | some code =>
        if code < 0xD800 || (0xE000 ≤ code && code < 0x110000) then
          some (Char.ofNat code, length + 1)
        else none
      | none => none
    match mark with
    | '0' => some ('\x00', 1)
    | 'a' => some ('\x07', 1)
    | 'b' => some ('\x08', 1)
    | 't' => some ('\t', 1)
    | '\t' => some ('\t', 1)
    | 'n' => some ('\n', 1)
    | 'v' => some ('\x0b', 1)
    | 'f' => some ('\x0c', 1)
    | 'r' => some ('\r', 1)
    | 'e' => some ('\x1b', 1)
    | ' ' => some (' ', 1)
    | '"' => some ('"', 1)
    | '/' => some ('/', 1)
    | '\\' => some ('\\', 1)
    | 'N' => some ('\u0085', 1)
    | '_' => some ('\u00a0', 1)
    | 'L' => some ('\u2028', 1)
    | 'P' => some ('\u2029', 1)
    | 'x' => code? 2
    | 'u' => code? 4
    | 'U' => code? 8
    | _ => none

/-- The rest of a text in quotes.  In single quotes a doubled quote stands for
one, in double quotes there are escapes. -/
def quotedFrom (single : Bool) : Nat → Gap → List Char → Cursor → Option ReadScalar
  | 0, _, _, _ => none
  | fuel + 1, gap, text, cursor =>
    if cursor.isDocumentMark then none
    else
      match cursor.rest with
      | [] => none
      | c :: rest =>
        let joined := text ++ gap.folded
        if single && c == '\'' then
          if rest.head? == some '\'' then
            quotedFrom single fuel {} (joined ++ ['\'']) (cursor.skip 2)
          else some ⟨joined, cursor.next, false⟩
        else if !single && c == '"' then some ⟨joined, cursor.next, false⟩
        else if !single && c == '\\' then
          match rest with
          | [] => none
          | d :: _ =>
            if isBreak d then
              let (_, past) := cursor.next.takeBreak
              match takeGap (fun _ _ => false) past.rest.length
                  { first := some [] } past with
              | some (gap, past) => quotedFrom single fuel gap joined past
              | none => none
            else
              match escape? rest with
              | some (escaped, length) =>
                quotedFrom single fuel {} (joined ++ [escaped]) (cursor.skip (length + 1))
              | none => none
        else if isBlank c || isBreak c then
          match takeGap (fun _ _ => false) (rest.length + 1) gap cursor with
          | some (gap, past) => quotedFrom single fuel gap text past
          | none => none
        else quotedFrom single fuel {} (joined ++ [c]) cursor.next

/-- The text in quotes that begins here. -/
def quoted (single : Bool) (cursor : Cursor) : Option ReadScalar :=
  quotedFrom single (cursor.rest.length + 1) {} [] cursor.next

/-! ## Blocks -/

/-- What becomes of line ends at the end of a block. -/
inductive Chomping where
  | strip
  | clip
  | keep
deriving DecidableEq

def chomping? : Char → Option Chomping
  | '+' => some .keep
  | '-' => some .strip
  | _ => none

/-- How deep a block is said to be. -/
def depth? (c : Char) : Option Nat :=
  if c.isDigit && c != '0' then some (c.toNat - '0'.toNat) else none

/-- What the head of a block says: what becomes of its end, and its depth. -/
def blockHead (cursor : Cursor) : Chomping × Option Nat × Cursor :=
  match cursor.head?.bind chomping? with
  | some chomping =>
    match cursor.next.head?.bind depth? with
    | some depth => (chomping, some depth, cursor.skip 2)
    | none => (chomping, none, cursor.next)
  | none =>
    match cursor.head?.bind depth? with
    | some depth =>
      match cursor.next.head?.bind chomping? with
      | some chomping => (chomping, some depth, cursor.skip 2)
      | none => (.clip, some depth, cursor.next)
    | none => (.clip, none, cursor)

/-- Empty lines before the next line of a block: their ends, the greatest
column met and the place after them.  Without a known depth all blanks are
passed. -/
def blockBreaks (indent : Option Nat) : Nat → List Char → Nat → Cursor →
    Option (List Char × Nat × Cursor)
  | 0, breaks, deepest, cursor => some (breaks, deepest, cursor)
  | fuel + 1, breaks, deepest, cursor =>
    let stays (column : Nat) : Bool :=
      match indent with
      | some indent => column < indent
      | none => true
    let room := match indent with
      | some indent => indent - cursor.column
      | none => cursor.rest.length
    let spaces := ((cursor.rest.take room).takeWhile (· == ' ')).length
    let past := cursor.skip spaces
    let deepest := max deepest past.column
    if stays past.column && past.isAt '\t' then none
    else
      match past.head? with
      | some c =>
        if isBreak c then
          let (lineEnd, after) := past.takeBreak
          blockBreaks indent fuel (breaks ++ lineEnd) deepest after
        else some (breaks, deepest, past)
      | none => some (breaks, deepest, past)

/-- A block under way: its text, the end of its last line, the empty lines after
that, and whether the last line began with a blank. -/
structure Block where
  text : List Char
  lineEnd : List Char
  empty : List Char
  indented : Bool

/-- The text before the next line of a block, which begins with a blank if
`indented` holds. -/
def Block.joined (block : Block) (literal indented : Bool) : List Char :=
  if !literal && block.lineEnd == ['\n'] && !block.indented && !indented then
    block.text ++ (if block.empty.isEmpty then [' '] else []) ++ block.empty
  else block.text ++ block.lineEnd ++ block.empty

/-- The lines of a block of a known depth. -/
def blockLines (literal : Bool) (indent : Nat) : Nat → Block → Cursor → Option (Block × Cursor)
  | 0, block, cursor => some (block, cursor)
  | fuel + 1, block, cursor =>
    if cursor.column != indent || cursor.rest.isEmpty then some (block, cursor)
    else
      let indented := (cursor.head?.map isBlank).getD false
      let before := block.joined literal indented
      let (line, atEnd) := cursor.takeWhile fun c => !isBreak c
      let (lineEnd, past) := atEnd.takeBreak
      match blockBreaks (some indent) (past.rest.length + 1) [] 0 past with
      | none => none
      | some (empty, _, next) =>
        blockLines literal indent fuel ⟨before ++ line, lineEnd, empty, indented⟩ next

/-- The block that begins here, inside something of a depth. -/
def block (literal : Bool) (outer : Int) (cursor : Cursor) : Option ReadScalar :=
  let (chomping, depth, afterHead) := blockHead cursor.next
  let afterComment := afterHead.skipBlanks.skipComment
  if !afterComment.endsLineAt 0 then none
  else
    let (_, start) := afterComment.takeBreak
    let known := depth.map fun depth => (max outer 0).toNat + depth
    match blockBreaks known (start.rest.length + 1) [] 0 start with
    | none => none
    | some (empty, deepest, first) =>
      let indent := known.getD (max deepest (max (outer + 1).toNat 1))
      match blockLines literal indent (first.rest.length + 1) ⟨[], [], empty, false⟩ first with
      | none => none
      | some (block, past) =>
        let ending := match chomping with
          | .strip => []
          | .clip => block.lineEnd
          | .keep => block.lineEnd ++ block.empty
        some ⟨block.text ++ ending, past, true⟩

end ContextPack.Yaml
