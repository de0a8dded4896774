import ContextPack.Data.Runs
import ContextPack.Text.Pieces

/-!
# Terms of a text

A word is a maximal run of ASCII letters, digits and underscores.  Without the
digits at its start and in small letters it is a term, unless it is too short
or so common that it says nothing.
-/

namespace ContextPack.Lexical

def isWordChar (c : Char) : Bool := c.isAlphanum || c == '_'

/-- Words of programming and of English that carry no meaning of their own. -/
def stopWords : List String :=
  ["and", "as", "assert", "async", "await", "break", "case", "catch", "class", "const",
   "continue", "def", "default", "del", "do", "elif", "else", "enum", "except", "export",
   "extends", "false", "final", "finally", "fn", "for", "from", "func", "function", "global",
   "go", "if", "impl", "import", "in", "interface", "is", "lambda", "let", "loop", "match",
   "mod", "module", "mut", "new", "nil", "none", "nonlocal", "not", "null", "or", "package",
   "pass", "private", "protected", "pub", "public", "raise", "return", "self", "static",
   "struct", "super", "switch", "this", "throw", "trait", "true", "try", "type", "typeof",
   "undefined", "use", "var", "void", "where", "while", "with", "yield", "string", "int",
   "bool", "str", "usize", "u32", "u64", "i32", "i64", "f64", "float", "char", "byte",
   "the", "that", "have", "are", "was", "were", "been", "but", "you", "all", "any", "can",
   "has", "its", "our", "out", "into", "than", "then", "them", "they", "these", "those",
   "will", "would", "should", "could", "when", "which", "who", "why", "how", "what", "there",
   "here", "also", "only", "more", "some", "such", "each", "other", "about", "over", "after",
   "before", "todo", "fixme", "http", "https", "www", "com"]

/-- Reads words: `inside` holds the current one, last character first, and is
empty between words.  A digit begins no word. -/
def scanWords (inside : List Char) : List Char → List (List Char)
  | [] => if inside.isEmpty then [] else [inside.reverse]
  | c :: rest =>
    if inside.isEmpty then
      if isWordChar c && !c.isDigit then scanWords [c] rest else scanWords [] rest
    else if isWordChar c then scanWords (c :: inside) rest
    else inside.reverse :: scanWords [] rest

/-- The words of a text, each from its first letter or underscore on. -/
def words (text : List Char) : List (List Char) := scanWords [] text

/-- The terms of a text with at least `minLength` characters, in their order. -/
def terms (minLength : Nat) (text : List Char) : List String :=
  (words text).filterMap fun word =>
    let term := String.ofList (Text.lowerAscii word)
    if word.length < minLength || stopWords.contains term then none else some term

/-- How often each term occurs, by term. -/
def frequencies (minLength : Nat) (text : String) : List (String × Nat) :=
  tally Text.le (terms minLength text.toList)

end ContextPack.Lexical
