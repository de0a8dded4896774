import ContextPack.Syntax.Scan

/-!
# The grammar of Python

A file is read line by line.  A header such as `if …:` is a line of its own,
and a line that is indented is a block by itself, so blocks need not be matched
up.  Operators have no precedence here: an expression is operands with
operators between them, since only calls, attributes and names are looked for.
-/

namespace ContextPack.Syntax.Python

open Rule

inductive Part where
  | file
  | statement
  | simpleLine
  | simple
  | expression
  | expressions
  | operand
  | brackets
  | format (close : List Char)
  | formatField
  | pattern
  | parameters
  | typeParameters
deriving DecidableEq

abbrev R := Rule Part

def operators : List (List Char) :=
  ["+", "-", "*", "**", "/", "//", "%", "@", "<<", ">>", "&", "|", "^", "~", "<", ">", "<=", ">=",
   "==", "!=", "<>", "=", "+=", "-=", "*=", "/=", "//=", "%=", "@=", "&=", "|=", "^=", ">>=",
   "<<=", "**=", ":=", "->", ":", ";", ",", ".", "...", "(", ")", "[", "]", "\x7b", "\x7d", "!"].map
    String.toList

def reserved : List (List Char) :=
  ["False", "None", "True", "and", "as", "assert", "async", "await", "break", "class", "continue",
   "def", "del", "elif", "else", "except", "finally", "for", "from", "global", "if", "import",
   "in", "is", "lambda", "nonlocal", "not", "or", "pass", "raise", "return", "try", "while",
   "with", "yield"].map String.toList

/-- A word or an operator. -/
def lit (text : String) : R :=
  match text.toList with
  | [] => .empty
  | c :: rest =>
    if Scan.isLetter c then .token (Scan.keyword Scan.isWordChar (c :: rest))
    else .token (Scan.operator operators (c :: rest))

instance : Coe String R := ⟨lit⟩

/-- The first of several words or operators. -/
def oneOf (texts : List String) : R := any (texts.map lit)

def nameScan : Scan := Scan.name reserved Scan.isLetter Scan.isWordChar

def identifier : R := .leaf "identifier" nameScan

/-- The length of a gap of blanks, comments and joined lines; line ends belong
to it while brackets are open.  The second flag tells whether a comment has
begun. -/
def gapLength (nested : Bool) : Bool → List Char → Nat
  | _, [] => 0
  | _, '\n' :: rest => if nested then gapLength nested false rest + 1 else 0
  | true, _ :: rest => gapLength nested true rest + 1
  | false, '#' :: rest => gapLength nested true rest + 1
  | false, '\\' :: '\n' :: rest => gapLength nested false rest + 2
  | false, '\\' :: '\r' :: '\n' :: rest => gapLength nested false rest + 3
  | false, c :: rest =>
    if Text.isBlank c || c = '\uFEFF' then gapLength nested false rest + 1 else 0

def trivia : Trivia := fun nested text =>
  let length := gapLength nested false text
  (length, (text.take length).contains '#')

/-! ## Strings -/

/-- The length of a string prefix made of the given letters. -/
def prefixLength (letters : List Char) (text : List Char) : Nat :=
  Scan.spanLength (fun c => letters.contains c) text

def quoteForms : List (List Char) :=
  [['"', '"', '"'], ['\'', '\'', '\''], ['"'], ['\'']]

/-- A string without fields: a prefix, quotes and what they hold. -/
def plainString : Scan := fun text =>
  let letters := prefixLength "rRbBuU".toList text
  let body := text.drop letters
  if letters ≤ 2 then
    (Scan.first (quoteForms.map Scan.quoted) body).map (letters + ·)
  else none

/-- The opening of a string with fields. -/
def formatOpening (quotes : List Char) : Scan := fun text =>
  let letters := prefixLength "rRfF".toList text
  let front := text.take letters
  if letters ≤ 2 && (front.contains 'f' || front.contains 'F') then
    (Scan.exactly quotes (text.drop letters)).map (letters + ·)
  else none

/-- Text of a string with fields up to a field or the closing quotes. -/
def formatTextLength (close : List Char) : List Char → Nat
  | [] => 0
  | '\\' :: _ :: rest => formatTextLength close rest + 2
  | '{' :: '{' :: rest => formatTextLength close rest + 2
  | '}' :: '}' :: rest => formatTextLength close rest + 2
  | c :: rest =>
    if c = '{' || Scan.startsWith close (c :: rest) then 0 else formatTextLength close rest + 1

def formatText (close : List Char) : Scan := fun text =>
  match formatTextLength close text with
  | 0 => none
  | count => some count

/-- Text of a format specification up to a field or its end. -/
def specText : Scan := fun text =>
  match Scan.spanLength (fun c => c != '{' && c != '}') text with
  | 0 => none
  | count => some count

def strings : R :=
  let withFields := any (quoteForms.map fun quotes =>
    all [.token (formatOpening quotes), .part (.format quotes)])
  .node "string" (atLeastOnce (any [.token plainString, withFields]))

/-! ## Names and expressions -/

def dottedName : R :=
  .node "dotted_name" (all [identifier, many (all [".", identifier])])

/-- Everything that may stand between two operands. -/
def binaryOperator : R :=
  any [oneOf ["+", "-", "*", "**", "/", "//", "%", "@", "<<", ">>", "&", "|", "^", "<", ">", "<=",
        ">=", "==", "!=", "<>", ":=", "and", "or", "in", "if", "else"],
    all ["not", "in"], all ["is", optional "not"]]

def prefixOperator : R := oneOf ["+", "-", "~", "*", "**", "not", "await"]

/-- What may stand between two expressions in brackets. -/
def separator : R := oneOf [",", ":", "=", "for", "async", "in", "as"]

def annotation : R := .node "type" (.part .expression)

/-- A parameter list without its brackets. -/
def parameterList : R :=
  many (any [oneOf ["*", "**", "/", ","], identifier, all [":", annotation],
    all ["=", .part .expression], .part .brackets])

/-- Follows a header: statements on the same line. -/
def suite : R := all [":", optional (.node "block" (.part .simpleLine))]

/-- A header of some kind that begins with a word and holds expressions. -/
def header (kind word : String) : R :=
  .node kind (all [optional "async", lit word,
    many (any [.part .expression, oneOf [",", "as", "in", "*"]]), suite])

def headers : R :=
  any [header "if_statement" "if", header "elif_clause" "elif", header "else_clause" "else",
    header "while_statement" "while", header "for_statement" "for", header "try_statement" "try",
    header "except_clause" "except", header "finally_clause" "finally",
    header "with_statement" "with"]

def definitionHeader : R :=
  .node "function_definition" (all [optional "async", "def", .field "name" identifier,
    optional (.part .typeParameters),
    .node "parameters" (all ["(", .nested (all [.part .parameters, ")"])]),
    optional (all ["->", annotation]), suite])

def classHeader : R :=
  .node "class_definition" (all ["class", .field "name" identifier,
    optional (.part .typeParameters),
    optional (.field "superclasses" (.node "argument_list" (.part .brackets))), suite])

/-- Words that begin a statement only if one may follow on the same line. -/
def softHeader : R :=
  any [.node "match_statement" (all ["match", .part .expressions, suite]),
    .node "case_clause" (all ["case", atLeastOnce (any [.part .pattern, ","]),
      optional (all ["if", .part .expression]), suite])]

/-- A name that is imported, perhaps under another one. -/
def importedName : R :=
  let renamed := .node "aliased_import" (all [.field "name" dottedName, "as",
    .field "alias" identifier])
  .field "name" (any [renamed, dottedName])

def importStatement : R :=
  .node "import_statement" (all ["import", separated importedName ","])

/-- Dots in front of a module name. -/
def dots : R := atLeastOnce (oneOf [".", "..."])

def fromImport : R :=
  let relative := .node "relative_import" (all [dots, optional dottedName])
  let items := any ["*", separated importedName ",",
    all ["(", .nested (all [separated importedName ",", ")"])]]
  any [.node "future_import_statement" (all ["from", "__future__", "import", items]),
    .node "import_from_statement" (all ["from", .field "module_name" (any [relative, dottedName]),
      "import", items])]

/-- What is assigned, perhaps through several targets. -/
def assigned : R := many (all ["=", .part .expressions])

def augmented : R :=
  all [oneOf ["+=", "-=", "*=", "/=", "//=", "%=", "@=", "&=", "|=", "^=", ">>=", "<<=", "**="],
    .part .expressions]

def assignment : R :=
  let value := all ["=", .part .expressions, assigned]
  .node "expression_statement" (.node "assignment" (all
    [.ahead (all [identifier, oneOf ["=", ":"]]), .field "left" identifier,
     any [all [":", annotation, optional value], value]]))

/-- Begins an operand on the same line, as after a statement word. -/
def operandFollows (text : List Char) : Bool :=
  match text.dropWhile (fun c => c = ' ' || c = '\t') with
  | c :: rest =>
    c = '"' || c = '\'' || c.isDigit ||
      (nameScan (c :: rest)).isSome
  | [] => false

def wordStatement : R :=
  any [oneOf ["pass", "break", "continue"],
    all [oneOf ["return", "del", "assert", "global", "nonlocal"], optional (.part .expressions)],
    all ["raise", optional (.part .expressions), optional (all ["from", .part .expressions])],
    all [oneOf ["print", "exec"], .guard operandFollows, .part .expressions],
    .node "type_alias_statement" (all ["type", .ahead (all [identifier, oneOf ["=", "["]]),
      annotation, "=", annotation])]

/-- An expression that stands in brackets. -/
def bracketed : R :=
  any [all [.ahead "(", .node "parenthesized_expression" (.part .brackets)],
    all [.ahead "[", .node "list" (.part .brackets)],
    all [.ahead "\x7b", .node "dictionary" (.part .brackets)]]

def file : R :=
  let atLineStart (text : List Char) : Bool :=
    match text with
    | c :: _ => !(c = ' ' || c = '\t' || c = '\x0c')
    | [] => true
  let lineEnd := .token (Scan.exactly ['\n'])
  let blankLine := lineEnd
  let line := any [all [.guard atLineStart, .part .statement],
    .node "block" (.part .statement)]
  many (any [blankLine, all [line, optional lineEnd], .token Scan.anything])

def rule : Part → R
  | .file => file
  | .statement =>
    any [definitionHeader, classHeader, headers, softHeader,
      all ["@", .part .expression],
      .part .simpleLine]
  | .simpleLine => separated (.part .simple) ";"
  | .simple =>
    any [importStatement, fromImport, wordStatement, assignment,
      .node "expression_statement" (all [.part .expressions,
        optional (any [all [":", annotation, assigned], augmented,
          all ["=", .part .expressions, assigned]])])]
  | .expressions => separated (.part .expression) ","
  | .expression =>
    let operand := all [many prefixOperator, .part .operand]
    all [operand, many (all [binaryOperator, operand])]
  | .operand =>
    let lambda := all ["lambda",
      many (any [oneOf ["*", "**", "/", ","], identifier, all ["=", .part .expression]]),
      ":", .part .expression]
    let yielded := all ["yield", optional "from", optional (.part .expressions)]
    let base := any [strings, identifier, .token Scan.number,
      bracketed, oneOf ["...", "True", "False", "None"]]
    let suffixes := any
      [.suffix "attribute" (some "object") (all [".", .field "attribute" identifier]),
       all [.ahead "(", .suffix "call" (some "function")
         (.field "arguments" (.node "argument_list" (.part .brackets)))],
       all [.ahead "[", .suffix "subscript" (some "value") (.part .brackets)]]
    any [lambda, yielded, .chain base suffixes]
  | .brackets =>
    let inside := many (any [.part .expression, separator])
    any [all ["(", .nested (all [inside, ")"])],
      all ["[", .nested (all [inside, "]"])],
      all ["\x7b", .nested (all [inside, "\x7d"])]]
  | .format close =>
    all [many (any [.raw (formatText close), .part .formatField]), .raw (Scan.exactly close)]
  | .formatField =>
    let spec := many (any [.raw specText, .part .formatField])
    all [.raw (Scan.exactly ['{']), .nested (all [.part .expressions, optional "=",
      optional (all ["!", .token (Scan.word Scan.isLetter Scan.isWordChar)]),
      optional (all [.token (Scan.exactly [':']), spec]), .token (Scan.exactly ['}'])])]
  | .pattern =>
    let simple := any [strings, identifier, .token Scan.number,
      oneOf [".", "|", "*", "**", "=", "+", "-", "_", "as", "True", "False", "None"]]
    let group (opening closing : String) : R :=
      all [opening, .nested (all [many (any [.part .pattern, ",", ":"]), closing])]
    any [simple, group "(" ")", group "[" "]", group "\x7b" "\x7d"]
  | .parameters => parameterList
  | .typeParameters => all [.ahead "[", .node "type_parameter" (.node "type" (.part .brackets))]

/-- The grammar of Python. -/
def grammar : Grammar Part := ⟨trivia, "module", .file, rule⟩

end ContextPack.Syntax.Python
