import ContextPack.Symbols.Basic
import ContextPack.Symbols.Language
import ContextPack.Syntax.Tree
import ContextPack.Text.Blank

/-!
# Collecting symbols

Reads the symbol facts of a file off its syntax tree.  A grammar has its own
kinds for what defines, binds, calls and names; a node is looked at under each
of these headings and under those of its language, and leaves a mark for every
name that it says something about.  The facts are the marks sorted into sets,
a name in only one of them: what is defined is no type of another file, and
what is defined, called or used as a type is no mere reference.
-/

namespace ContextPack.Symbols

open Syntax (Tree Placed)

/-! ## Kinds of nodes -/

/-- The kinds of nodes of a grammar that say something about names. -/
structure Kinds where
  /-- Every node of these kinds has a field `name`. -/
  definitions : List String
  /-- Bindings that define a name at the level of the module only. -/
  topLevelBindings : List String
  calls : List String
  typeIdentifiers : List String
  /-- No node is looked at both as a definition and as a binding. -/
  separate : ∀ kind ∈ topLevelBindings, kind ∉ definitions := by decide
  /-- A plain identifier says nothing about types by itself. -/
  plain : "identifier" ∉ typeIdentifiers := by decide

namespace Kinds

def python : Kinds where
  definitions := ["function_definition", "class_definition"]
  topLevelBindings := ["assignment"]
  calls := ["call"]
  typeIdentifiers := []

def rust : Kinds where
  definitions := ["function_item", "function_signature_item", "struct_item", "enum_item",
    "union_item", "trait_item", "type_item", "const_item", "static_item", "mod_item",
    "macro_definition"]
  topLevelBindings := []
  calls := ["call_expression", "macro_invocation"]
  typeIdentifiers := ["type_identifier"]

def javaScript : Kinds where
  definitions := ["function_declaration", "generator_function_declaration", "class_declaration",
    "method_definition"]
  topLevelBindings := ["variable_declarator"]
  calls := ["call_expression", "new_expression"]
  typeIdentifiers := []

def typeScript : Kinds where
  definitions := ["function_declaration", "generator_function_declaration", "class_declaration",
    "abstract_class_declaration", "method_definition", "interface_declaration",
    "type_alias_declaration", "enum_declaration"]
  topLevelBindings := ["variable_declarator"]
  calls := ["call_expression", "new_expression"]
  typeIdentifiers := ["type_identifier"]

def go : Kinds where
  definitions := ["function_declaration", "method_declaration", "type_spec"]
  topLevelBindings := ["const_spec", "var_spec"]
  calls := ["call_expression"]
  typeIdentifiers := ["type_identifier"]

/-- The kinds of a language's grammar, if it has one. -/
def of? : Language → Option Kinds
  | .python => some python
  | .rust => some rust
  | .javascript => some javaScript
  | .typescript | .tsx => some typeScript
  | .go => some go
  | .other => none

end Kinds

/-- The kinds of the root of a tree. -/
def rootKinds : List String := ["module", "program", "source_file"]

/-- The kinds of statements that leave a binding inside them at the level of the
module. -/
def bindingWrappers : List String :=
  ["expression_statement", "lexical_declaration", "variable_declaration", "export_statement",
   "const_declaration", "var_declaration"]

/-- Whether a node below nodes of these kinds, innermost first, is at the level
of the module. -/
def isTopLevel : List String → Bool
  | [] => false
  | kind :: above =>
    if rootKinds.contains kind then true
    else if bindingWrappers.contains kind then isTopLevel above
    else false

/-! ## Marks -/

/-- What a node says about a name. -/
inductive Mark where
  | defines (name : String)
  | calls (name : String)
  | usesType (name : String)
  | mentions (name : String)
  | imports (specifier : String)
  | exports (name : String)
deriving DecidableEq

/-- Names that stand for the surroundings and not for a symbol. -/
def ignoredNames : List String := ["self", "cls", "super", "_"]

/-- Whether an identifier is worth recording. -/
def isTelling (name : String) : Bool :=
  2 ≤ name.utf8ByteSize && !ignoredNames.contains name

/-- The mark of a symbol, if its name is worth recording. -/
def symbolMarks (mark : String → Mark) (symbol : Tree) : List Mark :=
  if isTelling symbol.text then [mark symbol.text] else []

/-- The marks that the child in a field leaves, if there is one. -/
def inField (tree : Tree) (field : String) (marks : Tree → List Mark) : List Mark :=
  match tree.child? field with
  | some child => marks child
  | none => []

/-- The field of a binding that holds what is bound. -/
def targetField (kind : String) : String := if kind = "assignment" then "left" else "name"

/-- What a node at module level defines by binding it. -/
def bindingMarks (tree : Tree) : List Mark :=
  inField tree (targetField tree.kind) fun target =>
    if target.kind = "identifier" then [.defines target.text] else []

def definitionMarks (kinds : Kinds) (node : Placed) : List Mark :=
  if kinds.definitions.contains node.tree.kind then
    inField node.tree "name" fun name => [.defines name.text]
  else if kinds.topLevelBindings.contains node.tree.kind && isTopLevel node.above then
    bindingMarks node.tree
  else []

/-! ## Quoted modules -/

private def quoteMarks : List Char := ['"', '\'', '`']

/-- The text between quotes. -/
def unquote (literal : String) : String :=
  String.ofList (Text.dropEndWhile quoteMarks.contains
    (literal.toList.dropWhile quoteMarks.contains))

/-- The import that a quoted module name makes. -/
def quotedImports (literal : Tree) : List Mark :=
  let specifier := unquote literal.text
  if specifier = "" then [] else [.imports specifier]

def sourceImports (tree : Tree) : List Mark := inField tree "source" quotedImports

/-! ## Calls -/

/-- The field of a call that holds what is called. -/
def calleeField : String → String
  | "new_expression" => "constructor"
  | "macro_invocation" => "macro"
  | _ => "function"

def calleeEnds : List String :=
  ["identifier", "type_identifier", "field_identifier", "property_identifier"]

/-- The field of a qualified name in which its last part stands. -/
def lastPartField? : String → Option String
  | "attribute" => some "attribute"
  | "member_expression" => some "property"
  | "field_expression" | "selector_expression" => some "field"
  | "scoped_identifier" => some "name"
  | "generic_function" => some "function"
  | _ => none

/-- The name by which a callee is known: the last part of a qualified one. -/
def calleeName? (callee : Tree) : Option String :=
  (callee.endOf? calleeEnds lastPartField?).map Tree.text

/-- The module that a call loads, if its callee loads modules and its first
argument is a string. -/
def loadedModule (call callee : Tree) : List Mark :=
  if callee.kind = "import" || (callee.kind = "identifier" && callee.text == "require") then
    match (call.child? "arguments").bind fun arguments => arguments.namedChildren.head? with
    | some first => if first.kind = "string" then quotedImports first else []
    | none => []
  else []

def callMarks (language : Language) (call : Tree) : List Mark :=
  inField call (calleeField call.kind) fun callee =>
    let name := (calleeName? callee).filter fun name => !ignoredNames.contains name
    name.toList.map .calls ++ if language.isScript then loadedModule call callee else []

/-! ## Types -/

/-- Every identifier in a tree, as a type. -/
def identifiersAsTypes (tree : Tree) : List Mark :=
  (Syntax.walk true [⟨[], tree⟩]).flatMap fun node =>
    if node.tree.kind = "identifier" then symbolMarks .usesType node.tree else []

/-- The field of a type in which its name stands. -/
def typeNameField? : String → Option String
  | "generic_type" => some "type"
  | "scoped_type_identifier" => some "name"
  | _ => none

/-- The node that names a type. -/
def typeName? (type : Tree) : Option Tree := type.endOf? ["type_identifier"] typeNameField?

/-- The types that an implementation is about. -/
def implementedTypes (tree : Tree) : List Mark :=
  ["type", "trait"].flatMap fun field =>
    inField tree field fun type => (typeName? type).toList.flatMap (symbolMarks .usesType)

/-! ## Imports and exports -/

/-- Names of imported things as they are called where they come from. -/
def importedNames (tree : Tree) : List String :=
  (tree.childrenIn "name").filterMap fun name =>
    (if name.kind = "aliased_import" then name.child? "name" else some name).map Tree.text

/-- Names of items taken from a module that is named by dots alone are modules
themselves. -/
def itemImports (tree : Tree) : List Mark :=
  inField tree "module_name" fun source =>
    let items := (importedNames tree).map fun item => Mark.imports (source.text ++ item)
    .imports source.text :: if source.text.toList.all (· = '.') then items else []

def nameExports (tree : Tree) : List Mark :=
  inField tree "name" fun name => [.exports name.text]

/-- Names that a declaration exports: its own and those it binds. -/
def declarationExports (declaration : Tree) : List Mark :=
  nameExports declaration ++ declaration.namedChildren.flatMap fun child =>
    if child.kind = "variable_declarator" then nameExports child else []

/-- The name under which an item is exported. -/
def itemExports (item : Tree) : List Mark :=
  match item.child? "alias" with
  | some name => [.exports name.text]
  | none => nameExports item

def exportMarks (tree : Tree) : List Mark :=
  sourceImports tree ++ inField tree "declaration" declarationExports ++
    tree.namedChildren.flatMap fun clause =>
      if clause.kind = "export_clause" then clause.namedChildren.flatMap itemExports else []

/-! ## Visiting a node -/

/-- A name as the symbol that its kind says it is. -/
def nameMarks (kinds : Kinds) (tree : Tree) : List Mark :=
  if kinds.typeIdentifiers.contains tree.kind then symbolMarks .usesType tree
  else if tree.kind = "identifier" then symbolMarks .mentions tree
  else []

/-- What nodes of some kinds say in one language only. -/
def languageMarks (language : Language) (tree : Tree) : List Mark :=
  match language with
  | .python =>
    match tree.kind with
    | "type" => identifiersAsTypes tree
    | "class_definition" => inField tree "superclasses" identifiersAsTypes
    | "import_statement" => (importedNames tree).map .imports
    | "import_from_statement" => itemImports tree
    | _ => []
  | .javascript | .typescript | .tsx =>
    match tree.kind with
    | "import_statement" => sourceImports tree
    | "export_statement" => exportMarks tree
    | "class_heritage" => identifiersAsTypes tree
    | _ => []
  | .rust => if tree.kind = "impl_item" then implementedTypes tree else []
  | .go | .other => []

/-- The marks that a node leaves by itself. -/
def visit (language : Language) (kinds : Kinds) (node : Placed) : List Mark :=
  let called := if kinds.calls.contains node.tree.kind then callMarks language node.tree else []
  definitionMarks kinds node ++ called ++ nameMarks kinds node.tree ++
    languageMarks language node.tree

/-! ## Facts from marks -/

def Mark.defined? : Mark → Option String
  | .defines name => some name
  | _ => none

def Mark.called? : Mark → Option String
  | .calls name => some name
  | _ => none

def Mark.usedAsType? : Mark → Option String
  | .usesType name => some name
  | _ => none

def Mark.mentioned? : Mark → Option String
  | .mentions name => some name
  | _ => none

def Mark.imported? : Mark → Option String
  | .imports specifier => some specifier
  | _ => none

def Mark.exported? : Mark → Option String
  | .exports name => some name
  | _ => none

/-- The names that marks give, ascending and once each. -/
def namesOf (select : Mark → Option String) (marks : List Mark) : List String :=
  Text.distinctSorted (marks.filterMap select)

def factsOf (hasModule : Bool) (marks : List Mark) : SymbolFacts :=
  let defines := namesOf Mark.defined? marks
  let calls := namesOf Mark.called? marks
  let types := (namesOf Mark.usedAsType? marks).filter fun name => !defines.contains name
  let references := (namesOf Mark.mentioned? marks).filter fun name =>
    !defines.contains name && !calls.contains name && !types.contains name
  { defines, references, calls, types
    module :=
      if hasModule then
        some ⟨namesOf Mark.imported? marks, namesOf Mark.exported? marks⟩
      else none }

/-- The facts of a tree, gathered from the nodes that the walk from its root
visits. -/
def collect (language : Language) (kinds : Kinds) (tree : Tree) : SymbolFacts :=
  factsOf language.hasModules ((Syntax.walk false [⟨[], tree⟩]).flatMap (visit language kinds))

end ContextPack.Symbols
