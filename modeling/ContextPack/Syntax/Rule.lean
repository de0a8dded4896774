import ContextPack.Syntax.Tree

/-!
# Grammar rules

A grammar gives a rule for each of its parts.  Rules are tried in order and
the first that fits is taken, so a rule says for itself where it must look
ahead.  Before a token blanks and comments are passed over; what they are may
depend on whether brackets are open.  What a rule reads becomes a list of
children, and `node` makes a tree of them.  Only named nodes are made.

Reading is by recursion on the rule; only the step from a part to its rule
uses up fuel.
-/

namespace ContextPack.Syntax

/-- Where reading stands. -/
structure Cursor where
  rest : List Char
  /-- Characters already read. -/
  position : Nat

namespace Cursor

def advance (cursor : Cursor) (count : Nat) : Cursor :=
  ⟨cursor.rest.drop count, cursor.position + count⟩

def textTo (start stop : Cursor) : String :=
  String.ofList (start.rest.take (stop.position - start.position))

end Cursor

/-- The length of a token at the start of a text, if one stands there. -/
abbrev Scan := List Char → Option Nat

/-- A rule over parts named by `P`. -/
inductive Rule (P : Type) where
  | empty
  | fail
  /-- A token that leaves no trace. -/
  | token (scan : Scan)
  /-- A token with nothing passed over before it. -/
  | raw (scan : Scan)
  /-- A token that becomes a tree. -/
  | leaf (kind : String) (scan : Scan)
  /-- Reads nothing, if the text ahead passes a test. -/
  | guard (test : List Char → Bool)
  | seq (first second : Rule P)
  | alt (first second : Rule P)
  /-- As often as it fits. -/
  | many (rule : Rule P)
  | ahead (rule : Rule P)
  | notAhead (rule : Rule P)
  | node (kind : String) (rule : Rule P)
  /-- Puts the trees that a rule reads into a field. -/
  | field (field : String) (rule : Rule P)
  /-- Line ends are passed over inside. -/
  | nested (rule : Rule P)
  /-- Line ends count again inside. -/
  | lined (rule : Rule P)
  /-- A base and then suffixes as often as they fit. -/
  | chain (base suffixes : Rule P)
  /-- Inside the suffixes of a chain: a tree of what the chain has read so far,
  perhaps in a field, and of what the rule reads. -/
  | suffix (kind : String) (field : Option String) (rule : Rule P)
  | part (part : P)

/-- What has been read. -/
structure Reading where
  children : List Child
  cursor : Cursor

/-- What is passed over before a token: its length, and whether there is a
comment in it.  The flag tells whether brackets are open. -/
abbrev Trivia := Bool → List Char → Nat × Bool

namespace Rule

variable {P : Type}

/-- One after the other. -/
def all (rules : List (Rule P)) : Rule P := rules.foldr seq empty

/-- The first that fits. -/
def any (rules : List (Rule P)) : Rule P := rules.foldr alt fail

def optional (rule : Rule P) : Rule P := alt rule empty

def atLeastOnce (rule : Rule P) : Rule P := seq rule (many rule)

/-- One or more with a separator between every two, and perhaps one after the
last. -/
def separated (rule separator : Rule P) : Rule P :=
  all [rule, many (seq separator rule), optional separator]

/-- Puts children other than comments into a field. -/
def assign (field : String) (children : List Child) : List Child :=
  children.map fun (old, tree) => if tree.kind = "comment" then (old, tree) else (some field, tree)

def commentChildren (hasComment : Bool) : List Child :=
  if hasComment then [(none, .node "comment" true "" [])] else []

/-- Applies a step as often as it succeeds and makes progress. -/
def iterate (step : Cursor → Option Reading) : Nat → Cursor → Reading
  | 0, cursor => ⟨[], cursor⟩
  | fuel + 1, cursor =>
    match step cursor with
    | none => ⟨[], cursor⟩
    | some reading =>
      if reading.cursor.position ≤ cursor.position then ⟨[], cursor⟩
      else
        let later := iterate step fuel reading.cursor
        ⟨reading.children ++ later.children, later.cursor⟩

/-- Extends what a chain has read as often as a suffix fits. -/
def extend (step : List Child → Cursor → Option Reading) : Nat → Reading → Reading
  | 0, reading => reading
  | fuel + 1, reading =>
    match step reading.children reading.cursor with
    | none => reading
    | some longer =>
      if longer.cursor.position ≤ reading.cursor.position then reading
      else extend step fuel longer

/-- What surrounds a rule while it is read. -/
structure Surroundings where
  trivia : Trivia
  /-- How often anything is repeated at most. -/
  limit : Nat
  /-- Whether brackets are open. -/
  nested : Bool
  /-- What the chain around has read, and where it began. -/
  seed : List Child
  origin : Cursor

/-- Reads a rule; `call` reads the parts in it. -/
def read (call : P → Bool → Cursor → Option Reading) (around : Surroundings) :
    Rule P → Cursor → Option Reading
  | empty, cursor => some ⟨[], cursor⟩
  | fail, _ => none
  | raw scan, cursor =>
    match scan cursor.rest with
    | some count => some ⟨[], cursor.advance count⟩
    | none => none
  | token scan, cursor =>
    let (skipped, hasComment) := around.trivia around.nested cursor.rest
    let start := cursor.advance skipped
    match scan start.rest with
    | some count => some ⟨commentChildren hasComment, start.advance count⟩
    | none => none
  | leaf kind scan, cursor =>
    let (skipped, hasComment) := around.trivia around.nested cursor.rest
    let start := cursor.advance skipped
    match scan start.rest with
    | some count =>
      let stop := start.advance count
      some ⟨commentChildren hasComment ++ [(none, .node kind true (start.textTo stop) [])], stop⟩
    | none => none
  | guard test, cursor => if test cursor.rest then some ⟨[], cursor⟩ else none
  | seq first second, cursor =>
    match read call around first cursor with
    | none => none
    | some reading =>
      match read call around second reading.cursor with
      | none => none
      | some later => some ⟨reading.children ++ later.children, later.cursor⟩
  | alt first second, cursor =>
    match read call around first cursor with
    | some reading => some reading
    | none => read call around second cursor
  | many rule, cursor => some (iterate (read call around rule) around.limit cursor)
  | ahead rule, cursor =>
    match read call around rule cursor with
    | some _ => some ⟨[], cursor⟩
    | none => none
  | notAhead rule, cursor =>
    match read call around rule cursor with
    | some _ => none
    | none => some ⟨[], cursor⟩
  | node kind rule, cursor =>
    let (skipped, hasComment) := around.trivia around.nested cursor.rest
    let start := cursor.advance skipped
    match read call around rule start with
    | none => none
    | some reading =>
      let tree := Tree.node kind true (start.textTo reading.cursor) reading.children
      some ⟨commentChildren hasComment ++ [(none, tree)], reading.cursor⟩
  | field place rule, cursor =>
    match read call around rule cursor with
    | none => none
    | some reading => some ⟨assign place reading.children, reading.cursor⟩
  | nested rule, cursor => read call { around with nested := true } rule cursor
  | lined rule, cursor => read call { around with nested := false } rule cursor
  | chain base suffixes, cursor =>
    let (skipped, hasComment) := around.trivia around.nested cursor.rest
    let start := cursor.advance skipped
    match read call around base start with
    | none => none
    | some reading =>
      let step (seed : List Child) (cursor : Cursor) : Option Reading :=
        read call { around with seed := seed, origin := start } suffixes cursor
      let whole := extend step around.limit reading
      some ⟨commentChildren hasComment ++ whole.children, whole.cursor⟩
  | suffix kind place rule, cursor =>
    match read call around rule cursor with
    | none => none
    | some reading =>
      let before :=
        match place with
        | some place => assign place around.seed
        | none => around.seed
      let text := around.origin.textTo reading.cursor
      some ⟨[(none, .node kind true text (before ++ reading.children))], reading.cursor⟩
  | part name, cursor => call name around.nested cursor

end Rule

/-- A language's grammar. -/
structure Grammar (P : Type) where
  trivia : Trivia
  /-- The kind of the node for a whole file. -/
  root : String
  start : P
  rule : P → Rule P

namespace Grammar

variable {P : Type}

/-- Reads a part by its rule, going through at most `fuel` parts one inside
another. -/
def readPart (grammar : Grammar P) (limit : Nat) : Nat → P → Bool → Cursor → Option Reading
  | 0, _, _, _ => none
  | fuel + 1, part, nested, cursor =>
    (grammar.rule part).read (grammar.readPart limit fuel)
      ⟨grammar.trivia, limit, nested, [], cursor⟩ cursor

/-- How many parts may be one inside another before a character is read. -/
def partsPerCharacter : Nat := 64

/-- The tree of a source text; what no rule fits is left out. -/
def parse (grammar : Grammar P) (source : String) : Tree :=
  let start : Cursor := ⟨source.toList, 0⟩
  let limit := start.rest.length + 1
  match grammar.readPart limit (partsPerCharacter * limit) grammar.start false start with
  | some reading => .node grammar.root true source reading.children
  | none => .node grammar.root true source []

end Grammar

end ContextPack.Syntax
