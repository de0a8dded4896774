import ContextPack.Syntax.Script.Expression

/-!
# Statements of the script languages

A statement ends where nothing that follows can belong to it, so its closing
sign may be missing.  Declarations that are exported keep their own form inside
the export.
-/

namespace ContextPack.Syntax.Script

open Rule

def sequence : R := separated (.part .expression) ","

def condition : R := all ["(", sequence, ")"]

/-! ## Declarations -/

def declarator (dialect : Dialect) : R :=
  let assured := ifTyped dialect "!"
  .node "variable_declarator" (all [.field "name" (.part .pattern), assured,
    ifTyped dialect (.field "type" annotation), optional (.field "value" initializer)])

/-- The word that begins a declaration of variables within their block. -/
def lexicalWord : R :=
  any ["const", all ["let", .ahead (any [.token nameScan, oneOf ["[", "\x7b"]])]]

def variableList (dialect : Dialect) : R :=
  let declarators := separated (declarator dialect) ","
  any [.node "lexical_declaration" (all [lexicalWord, declarators]),
    .node "variable_declaration" (all ["var", declarators])]

/-- A function with a body is defined; one without is only described. -/
def functionDeclaration : R :=
  let front (mark : R) : R := all [optional "async", "function", mark, .field "name" identifier,
    .part .signature]
  let body : R := .field "body" (.part .block)
  any [.node "function_declaration" (all [front .empty, body]),
    .node "generator_function_declaration" (all [front "*", body]),
    .node "function_signature" (front (optional "*"))]

def classDeclaration (dialect : Dialect) : R :=
  let name := all [.notAhead (oneOf ["extends", "implements", "\x7b"]), className dialect]
  let declared := all ["class", .field "name" name, .part .classTail]
  any [onlyIf dialect.types (.node "abstract_class_declaration" (all ["abstract", declared])),
    .node "class_declaration" declared]

def interfaceDeclaration : R :=
  let extended := .node "extends_type_clause" (all ["extends",
    separated (.part .typeExpression) ","])
  .node "interface_declaration" (all ["interface", .field "name" typeName,
    optional (.part .typeParameters), optional extended, .field "body" (.part .members)])

def typeAlias : R :=
  .node "type_alias_declaration" (all ["type", .field "name" typeName,
    optional (.part .typeParameters), "=", .field "value" (.part .typeExpression)])

def enumDeclaration : R :=
  let member := all [propertyName, optional initializer]
  .node "enum_declaration" (all [optional "const", "enum", .field "name" identifier,
    .field "body" (.node "enum_body" (inBraces (any [member, ","])))])

/-- A name with the names of its members behind it. -/
def nestedName : R :=
  .chain identifier (.suffix "nested_identifier" (some "object") (all [".",
    .field "property" memberName]))

def namespaceDeclaration : R :=
  let rest := all [.field "name" (any [stringLiteral, nestedName]), .ahead "\x7b",
    .field "body" (.part .block)]
  any [.node "internal_module" (all ["namespace", rest]), .node "module" (all ["module", rest])]

/-- A name for something that another module or name stands for. -/
def importAlias : R :=
  .node "import_alias" (all ["import", optional (all ["type", .ahead identifier, .notAhead "="]),
    identifier, "=", any [all ["require", "(", stringLiteral, ")"], nestedName]])

/-- Declarations that only TypeScript has. -/
def typedDeclaration : R :=
  any [interfaceDeclaration, typeAlias, enumDeclaration, namespaceDeclaration, importAlias]

def declaration (dialect : Dialect) : R :=
  let plain := any [functionDeclaration, classDeclaration dialect]
  let ambient := .node "ambient_declaration" (all ["declare", .ahead (.token anyWord),
    any [all ["global", .part .block], variableList dialect, plain, typedDeclaration,
      .node "module" (all ["module", .field "name" stringLiteral])]])
  any [plain, onlyIf dialect.types typedDeclaration, variableList dialect,
    onlyIf dialect.types ambient]

/-! ## Imports and exports -/

def fromClause : R :=
  let settings := all [oneOf ["with", "assert"], .part .objectLiteral]
  all ["from", .field "source" stringLiteral, optional settings]

/-- A mark that an item stands for a type. -/
def typeMark (dialect : Dialect) : R :=
  onlyIf dialect.types (all ["type", .ahead (any [all [.notAhead (oneOf ["as", "from"]),
    .token anyWord], oneOf ["\x7b", "*"]])])

def importStatement (dialect : Dialect) : R :=
  let mark := optional (typeMark dialect)
  let name := .field "name" itemName
  let renamed := all ["as", .field "alias" identifier]
  let item := .node "import_specifier" (any [all [mark, name, renamed], all [mark, name],
    all [.field "name" stringLiteral, renamed]])
  let clause := any [.node "namespace_import" (all ["*", "as", identifier]),
    .node "named_imports" (listed "\x7b" item "\x7d"), identifier]
  let settings := all [oneOf ["with", "assert"], .part .objectLiteral]
  .node "import_statement" (all ["import", .notAhead (oneOf ["(", "."]),
    any [all [.field "source" stringLiteral, optional settings],
      all [mark, .node "import_clause" (separated clause ","), fromClause]]])

def exportStatement (dialect : Dialect) : R :=
  let mark := optional (typeMark dialect)
  let name := any [itemName, stringLiteral]
  let item := .node "export_specifier" (all [mark, .field "name" name,
    optional (all ["as", .field "alias" name])])
  let items := .node "export_clause" (listed "\x7b" item "\x7d")
  let everything := all ["*", optional (.node "namespace_export" (all ["as", name]))]
  let assigned := any [all ["=", .part .expression], all ["as", "namespace", identifier]]
  let byDefault := all [many decorator, .field "declaration" (any [functionDeclaration,
    classDeclaration dialect, onlyIf dialect.types interfaceDeclaration])]
  .node "export_statement" (all [many decorator, "export",
    any [all [mark, any [items, everything], optional fromClause],
      .field "declaration" (declaration dialect),
      all ["default", any [byDefault, .field "value" (.part .expression)]],
      onlyIf dialect.types assigned]])

/-! ## Statements -/

def forHeader (dialect : Dialect) : R :=
  all ["for", optional "await", "(", many (any [variableList dialect, oneOf ["of", "in", ";", ","],
    .part .expression]), ")"]

def switchBody : R :=
  let clause := any [all ["case", sequence, ":"], all ["default", ":"]]
  .node "switch_body" (inBraces (any [clause, .part .statement]))

/-- Statements that begin with a word of their own. -/
def wordStatement (dialect : Dialect) : R :=
  let caught := all ["(", .part .pattern, ifTyped dialect annotation, ")"]
  let otherwise := .node "else_clause" (all ["else", .part .statement])
  let handler := .node "catch_clause" (all ["catch", optional caught, .part .block])
  let finisher := .node "finally_clause" (all ["finally", .part .block])
  let jump (kind word : String) : R :=
    .node kind (all [lit word, optional (all [sameLine, sequence])])
  any
    [.node "if_statement" (all ["if", condition, .part .statement, optional otherwise]),
     .node "for_statement" (all [forHeader dialect, .part .statement]),
     .node "while_statement" (all ["while", condition, .part .statement]),
     .node "with_statement" (all ["with", condition, .part .statement]),
     .node "do_statement" (all ["do", .part .statement, "while", condition]),
     .node "switch_statement" (all ["switch", condition, switchBody]),
     .node "try_statement" (all ["try", .part .block, optional handler, optional finisher]),
     jump "return_statement" "return", jump "throw_statement" "throw",
     all [oneOf ["break", "continue"], optional (all [sameLine, plainName])],
     "debugger"]

def statement (dialect : Dialect) : R :=
  any [";", importStatement dialect, exportStatement dialect,
    all [many decorator, declaration dialect],
    .part .block, wordStatement dialect,
    .node "labeled_statement" (all [plainName, ":", .part .statement]),
    all [plainName, ":"],
    all [.notAhead (oneOf ["case", "default"]), .node "expression_statement" sequence]]

/-- A first line that names a program to run the file with. -/
def interpreterLine : Scan
  | '#' :: '!' :: rest => some (2 + Scan.lineLength rest)
  | _ => none

def rule (dialect : Dialect) : Part → R
  | .file =>
    all [optional (.raw interpreterLine), many (any [.part .statement, .token Scan.anything])]
  | .statement => statement dialect
  | .block => .node "statement_block" (inBraces (.part .statement))
  | .expression => expression dialect
  | .operand => operand dialect
  | .arguments => arguments
  | .template => templateOf "template_string" "template_substitution" sequence
  | .element => element dialect
  | .parameters => parameters dialect
  | .pattern => pattern
  | .objectLiteral => objectLiteral
  | .classTail => classTail dialect
  | .typeExpression => typeExpression
  | .plainType => plainType
  | .typeArguments => .node "type_arguments" (angled (.part .typeExpression))
  | .typeParameters => .node "type_parameters" typeParameters
  | .typeTemplate => templateOf "template_literal_type" "template_type" (.part .typeExpression)
  | .members => .node "object_type" members
  | .signature => signature dialect

/-- The grammar of a script language. -/
def grammar (dialect : Dialect) : Grammar Part := ⟨trivia, "program", .file, rule dialect⟩

end ContextPack.Syntax.Script
