import ContextPack.Path.Basic
import ContextPack.Pattern.Basic
import ContextPack.Symbols.Basic
import ContextPack.Text.WordChar

/-!
# Symbols by patterns

For languages without a grammar (Terraform, YAML, Java, C and others) symbols
are found by patterns.  That is coarse, but enough to link definitions to
uses.
-/

namespace ContextPack.Symbols

open Pattern

def asciiLetter : Char → Bool := fun c => c.isAlpha || c = '_'

def asciiWord : Char → Bool := fun c => c.isAlphanum || c = '_'

private def dashedWord : Char → Bool := fun c => asciiWord c || c = '-'

/-- A letter or underscore and word characters. -/
def identifierPattern : Pattern := seq (char asciiLetter) (many (char asciiWord))

/-- A text between quotes, not empty. -/
def quotedPattern (inside : Pattern → Pattern) : Pattern :=
  all [char (· = '"'), inside (atLeastOnce (char (· ≠ '"'))), char (· = '"')]

private def lineIndent : Pattern := seq lineStart (many blank)

/-- A definition: modifiers, a word that says what is defined, and a name. -/
def definitionPattern : Pattern :=
  let visibility := all [text "pub",
    optional (all [char (· = '('), atLeastOnce (char Char.isLower), char (· = ')')])]
  let modifier := any [visibility, oneOf ["export", "public", "private", "protected", "static",
    "final", "abstract", "async", "inline"]]
  let introducer := any [oneOf ["def", "fn", "func", "function", "class", "struct", "enum",
      "interface", "trait", "record", "object"],
    all [text "typedef", atLeastOnce blank, text "struct"], text "module"]
  all [lineIndent, many (all [modifier, atLeastOnce blank]), introducer, atLeastOnce blank,
    capture identifierPattern]

/-- The label of a resource or data block. -/
def resourcePattern : Pattern :=
  all [lineIndent, oneOf ["resource", "data"], atLeastOnce blank, quotedPattern id,
    atLeastOnce blank, quotedPattern capture]

/-- The label of a block with one label. -/
def namedBlockPattern : Pattern :=
  all [lineIndent, oneOf ["variable", "output", "module", "provider"], atLeastOnce blank,
    quotedPattern capture]

/-- The inside of a block of local values. -/
def localsPattern : Pattern :=
  all [lineStart, text "locals", many blank, char (· = '{'),
    capture (lazyMany (char fun _ => true)), lineStart, char (· = '}')]

/-- A key with a value. -/
def assignmentPattern : Pattern :=
  all [lineIndent, capture identifierPattern, many blank, char (· = '=')]

/-- A name before an opening parenthesis. -/
def callPattern : Pattern :=
  all [wordEdge, capture identifierPattern, many blank, char (· = '(')]

/-- A word that begins with a capital and holds a small letter. -/
def typePattern : Pattern :=
  all [wordEdge,
    capture (all [char Char.isUpper, many (char asciiWord), char Char.isLower,
      many (char asciiWord)]),
    wordEdge]

private def dashedName : Pattern := seq (char asciiLetter) (many (char dashedWord))

/-- A use of a variable, a local value or a module. -/
def valuePattern : Pattern :=
  all [wordEdge, oneOf ["var", "local", "module"], char (· = '.'), capture dashedName]

/-- A use of a resource: its type with an underscore, and its label. -/
def resourceUsePattern : Pattern :=
  let small : Char → Bool := fun c => c.isLower || c.isDigit
  all [wordEdge, optional (text "data."), char Char.isLower, many (char small), char (· = '_'),
    atLeastOnce (char fun c => small c || c = '_'), char (· = '.'), capture dashedName,
    char (· = '.')]

/-- Words before a parenthesis that call nothing. -/
def callKeywords : List String :=
  ["if", "for", "while", "switch", "return", "catch", "sizeof", "elif", "match", "with", "assert",
   "print", "typeof", "defined", "function", "func", "def", "fn", "new", "not", "and", "or", "in"]

private def found (pattern : Pattern) (content : List Char) : List String :=
  (captures Text.isWordChar pattern content).map String.ofList

/-- Whether a file is written in the configuration language with blocks of
local values. -/
def hasLocals (path : String) : Bool :=
  match Path.extension? path with
  | some ending => ending == "tf" || ending == "tfvars" || ending == "hcl"
  | none => false

def definedNames (path : String) (content : List Char) : List String :=
  let locals :=
    if hasLocals path then
      (captures Text.isWordChar localsPattern content).flatMap (found assignmentPattern)
    else []
  Text.distinctSorted <| found definitionPattern content ++ found resourcePattern content ++
    found namedBlockPattern content ++ locals

/-- The symbol facts of a text in any language. -/
def byPatterns (path content : String) : SymbolFacts :=
  let text := content.toList
  let defines := definedNames path text
  let calls := Text.distinctSorted <| (found callPattern text).filter fun name =>
    !callKeywords.contains name && !defines.contains name
  let types := Text.distinctSorted <| (found typePattern text).filter fun name =>
    !defines.contains name && !calls.contains name
  let references := Text.distinctSorted <|
    (found valuePattern text ++ found resourceUsePattern text).filter fun name =>
      !defines.contains name
  { defines, references, calls, types, module := none }

end ContextPack.Symbols
