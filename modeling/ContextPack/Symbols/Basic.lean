import ContextPack.Text.Pieces

/-!
# Symbol facts

What one source file says about names: those it defines, those it calls, those
it uses as types and all others it mentions.  Files of languages with modules
also say what they import and export.  Every list is ascending and without
repeats.
-/

namespace ContextPack

/-- Imports and exports of a file. -/
structure ModuleFacts where
  /-- Module names as written. -/
  imports : List String
  exports : List String
deriving DecidableEq

structure SymbolFacts where
  defines : List String
  references : List String
  calls : List String
  types : List String
  module : Option ModuleFacts
deriving DecidableEq

namespace SymbolFacts

def empty : SymbolFacts := ⟨[], [], [], [], none⟩

def exports (facts : SymbolFacts) : List String :=
  match facts.module with
  | some module => module.exports
  | none => []

def imports (facts : SymbolFacts) : List String :=
  match facts.module with
  | some module => module.imports
  | none => []

def isEmpty (facts : SymbolFacts) : Bool :=
  facts.defines.isEmpty && facts.references.isEmpty && facts.calls.isEmpty &&
    facts.types.isEmpty && facts.imports.isEmpty && facts.exports.isEmpty

/-- Names that the file offers to others; one that is defined and exported
comes twice. -/
def provided (facts : SymbolFacts) : List String := facts.defines ++ facts.exports

/-- The facts with every list ascending and without repeats. -/
def normalize (facts : SymbolFacts) : SymbolFacts where
  defines := Text.distinctSorted facts.defines
  references := Text.distinctSorted facts.references
  calls := Text.distinctSorted facts.calls
  types := Text.distinctSorted facts.types
  module := facts.module.map fun module =>
    ⟨Text.distinctSorted module.imports, Text.distinctSorted module.exports⟩

end SymbolFacts

end ContextPack
