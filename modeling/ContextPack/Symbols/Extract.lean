import ContextPack.Symbols.Collect
import ContextPack.Symbols.Language
import ContextPack.Symbols.Patterns
import ContextPack.Syntax.Go
import ContextPack.Syntax.Python
import ContextPack.Syntax.Rust
import ContextPack.Syntax.Script.Grammar

/-!
# Extraction

The symbol facts of a source file: from its syntax tree where its language has
a grammar, and by patterns otherwise.
-/

namespace ContextPack.Symbols

/-- The syntax tree of a source text. -/
def parse? (language : Language) (content : String) : Option Syntax.Tree :=
  match language with
  | .python => some (Syntax.Python.grammar.parse content)
  | .go => some (Syntax.Go.grammar.parse content)
  | .rust => some (Syntax.Rust.grammar.parse content)
  | .javascript => some ((Syntax.Script.grammar .javaScript).parse content)
  | .typescript => some ((Syntax.Script.grammar .typeScript).parse content)
  | .tsx => some ((Syntax.Script.grammar .markedTypeScript).parse content)
  | _ => none

/-- The symbol facts of a source text, if its language has a grammar. -/
def bySyntax? (language : Language) (content : String) : Option SymbolFacts := do
  let kinds ← Kinds.of? language
  let tree ← parse? language content
  some (collect language kinds tree)

/-- The symbol facts of a file: by its grammar, or else by patterns. -/
def extract (path content : String) : SymbolFacts :=
  match bySyntax? (Language.detect path) content with
  | some facts => facts
  | none => byPatterns path content

end ContextPack.Symbols
