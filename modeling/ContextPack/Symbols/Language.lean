import ContextPack.Path.Basic

/-!
# Languages

The language of a file, told by its extension.
-/

namespace ContextPack

inductive Language where
  | python
  | rust
  | javascript
  | typescript
  | tsx
  | go
  | other
deriving DecidableEq

namespace Language

def ofExtension : String → Language
  | "py" | "pyi" => .python
  | "rs" => .rust
  | "js" | "jsx" | "mjs" | "cjs" => .javascript
  | "ts" | "mts" | "cts" => .typescript
  | "tsx" => .tsx
  | "go" => .go
  | _ => .other

def detect (path : String) : Language :=
  match Path.extension? path with
  | some ending => ofExtension ending
  | none => .other

/-- Whether files of the language link to each other by imports and exports. -/
def hasModules : Language → Bool
  | .python | .javascript | .typescript | .tsx => true
  | .rust | .go | .other => false

/-- Whether the language is JavaScript or one of its typed forms. -/
def isScript : Language → Bool
  | .javascript | .typescript | .tsx => true
  | .python | .rust | .go | .other => false

end Language

end ContextPack
