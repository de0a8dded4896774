import ContextPack.Syntax.Scan

/-!
# Words and literals of the script languages

JavaScript and TypeScript share their grammar.  A dialect says whether types
may be written, and whether elements in angle brackets may stand for values.
-/

namespace ContextPack.Syntax.Script

open Rule

/-- What a script language allows. -/
structure Dialect where
  /-- Types may be written. -/
  types : Bool
  /-- Elements in angle brackets are values. -/
  markup : Bool
deriving DecidableEq

namespace Dialect

def javaScript : Dialect := ⟨false, true⟩

def typeScript : Dialect := ⟨true, false⟩

/-- TypeScript with elements. -/
def markedTypeScript : Dialect := ⟨true, true⟩

end Dialect

inductive Part where
  | file
  | statement
  | block
  | expression
  | operand
  | arguments
  | template
  | element
  | parameters
  | pattern
  | objectLiteral
  | classTail
  | typeExpression
  /-- A type that ends before a condition on it. -/
  | plainType
  | typeArguments
  | typeParameters
  | typeTemplate
  | members
  /-- The parameters and the result of a function. -/
  | signature
deriving DecidableEq

abbrev R := Rule Part

def operators : List (List Char) :=
  ["+", "-", "*", "/", "%", "**", "++", "--", "<<", ">>", ">>>", "&", "|", "^", "~", "!", "&&",
   "||", "??", "<", ">", "<=", ">=", "==", "!=", "===", "!==", "=", "+=", "-=", "*=", "/=", "%=",
   "**=", "<<=", ">>=", ">>>=", "&=", "|=", "^=", "&&=", "||=", "??=", "=>", "?", "?.", ":", ";",
   ",", ".", "...", "(", ")", "[", "]", "\x7b", "\x7d", "@", "#"].map String.toList

def reserved : List (List Char) :=
  ["break", "case", "catch", "class", "const", "continue", "debugger", "default", "delete", "do",
   "else", "export", "extends", "false", "finally", "for", "function", "if", "import", "in",
   "instanceof", "new", "null", "return", "super", "switch", "this", "throw", "true", "try",
   "typeof", "undefined", "var", "void", "while", "with"].map String.toList

def isLetter (c : Char) : Bool := Scan.isLetter c || c == '$'

def isWordChar (c : Char) : Bool := Scan.isWordChar c || c == '$'

/-- A word or an operator. -/
def lit (text : String) : R :=
  match text.toList with
  | [] => .empty
  | c :: rest =>
    if isLetter c then .token (Scan.keyword isWordChar (c :: rest))
    else .token (Scan.operator operators (c :: rest))

instance : Coe String R := ⟨lit⟩

/-- The first of several words or operators. -/
def oneOf (texts : List String) : R := any (texts.map lit)

/-- A rule that only some dialects have. -/
def onlyIf (allowed : Bool) (rule : R) : R := if allowed then rule else .fail

/-- What may stand only where types may be written, and need not. -/
def ifTyped (dialect : Dialect) (rule : R) : R := if dialect.types then optional rule else .empty

/-- Blanks, line ends and comments; whether lines are joined is no matter of
brackets here. -/
def trivia : Trivia := fun _ text =>
  Scan.slashTrivia (fun c => Text.isBlank c || c == '\uFEFF') false text

def sameLine : R := .guard Scan.sameLine

/-! ## Names -/

def anyWord : Scan := Scan.word isLetter isWordChar

def nameScan : Scan := Scan.name reserved isLetter isWordChar

def identifier : R := .leaf "identifier" nameScan

/-- A name of an imported or exported item, which may be any word. -/
def itemName : R := .leaf "identifier" anyWord

def typeName : R := .leaf "type_identifier" nameScan

def privateName : Scan
  | '#' :: rest => (anyWord rest).map (1 + ·)
  | _ => none

/-- The name of a property.  A private one is no name by which a call is
known. -/
def memberName : R :=
  any [.leaf "private_property_identifier" privateName, .leaf "property_identifier" anyWord]

/-- A name that stands for no symbol, as that of a label. -/
def plainName : R := .token nameScan

/-! ## Literals -/

def stringLiteral : R :=
  .leaf "string" (Scan.first [Scan.quoted ['"'], Scan.quoted ['\'']])

def number : R := .token Scan.number

/-- The length of the rest of a regular expression, if it ends on its line; the
flag tells whether a bracket is open. -/
def patternRest : Bool → List Char → Option Nat
  | _, [] => none
  | inClass, '\\' :: c :: rest =>
    if c == '\n' then none else (patternRest inClass rest).map (2 + ·)
  | inClass, c :: rest =>
    if c == '\n' then none
    else if c == '/' && !inClass then some 1
    else (patternRest (c == '[' || (inClass && c != ']')) rest).map (1 + ·)

def regularExpression : Scan
  | '/' :: rest =>
    match rest with
    | c :: _ =>
      if c == '/' || c == '*' then none
      else
        (patternRest false rest).map fun body =>
          1 + body + Scan.spanLength isWordChar (rest.drop body)
    | [] => none
  | _ => none

/-- Text of a template up to a hole or the closing quote. -/
def templateTextLength : List Char → Nat
  | [] => 0
  | '\\' :: _ :: rest => templateTextLength rest + 2
  | '$' :: rest =>
    if Scan.startsWith ['{'] rest then 0 else templateTextLength rest + 1
  | c :: rest => if c == '`' then 0 else templateTextLength rest + 1

def templateText : Scan := fun text =>
  match templateTextLength text with
  | 0 => none
  | count => some count

/-- Text with holes in it between backward quotes. -/
def templateOf (kind holeKind : String) (filling : R) : R :=
  let hole := .node holeKind (all [.raw (Scan.exactly ['$', '{']), filling, "\x7d"])
  .node kind (all [.token (Scan.exactly ['`']), many (any [.raw templateText, hole]),
    .raw (Scan.exactly ['`'])])

/-! ## Lists -/

/-- Items in brackets that are separated by commas; some may be missing. -/
def listed (opening : String) (item : R) (closing : String) : R :=
  all [opening, many (any [item, ","]), closing]

/-- Items in braces, with anything else between them passed over. -/
def inBraces (item : R) : R :=
  let skipped := all [.notAhead "\x7d", .token Scan.anything]
  all ["\x7b", many (any [item, skipped]), "\x7d"]

/-- Items in angle brackets that are separated by commas. -/
def angled (item : R) : R :=
  all [.token (Scan.exactly ['<']), optional (separated item ","), .token (Scan.exactly ['>'])]

/-- A list of words that change what follows them, each only if a name or the
like does. -/
def modifiers (words : List String) : R :=
  let follows := any [.token anyWord, stringLiteral, number, oneOf ["[", "#", "*", "\x7b"]]
  many (all [oneOf words, .ahead follows])

end ContextPack.Syntax.Script
