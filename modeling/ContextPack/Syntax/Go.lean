import ContextPack.Syntax.Scan

/-!
# The grammar of Go

A line end closes a statement wherever it may stand after the last token, and
is passed over elsewhere: in brackets, after an operator and before an operand.
An expression is operands with operators between them.  Composite literals of
a named type are read only where a brace cannot open a block.
-/

namespace ContextPack.Syntax.Go

open Rule

inductive Part where
  | file
  | statement
  | block
  | typeExpression
  | typeArguments
  | parameters
  | fields
  | methods
  | expression
  /-- An operand; the flag tells whether a brace may follow a type name. -/
  | operand (literals : Bool)
  /-- An expression in the header of a block. -/
  | headerExpression
  | arguments
  | literalValue
deriving DecidableEq

abbrev R := Rule Part

def operators : List (List Char) :=
  ["+", "-", "*", "/", "%", "&", "|", "^", "<<", ">>", "&^", "+=", "-=", "*=", "/=", "%=", "&=",
   "|=", "^=", "<<=", ">>=", "&^=", "&&", "||", "<-", "++", "--", "==", "<", ">", "=", "!", "~",
   "!=", "<=", ">=", ":=", "...", "(", ")", "[", "]", "\x7b", "\x7d", ",", ";", ".", ":"].map
    String.toList

def keywords : List (List Char) :=
  ["break", "case", "chan", "const", "continue", "default", "defer", "else", "fallthrough", "for",
   "func", "go", "goto", "if", "import", "interface", "map", "package", "range", "return",
   "select", "struct", "switch", "type", "var"].map String.toList

/-- Names of fixed values, which are no identifiers in an expression. -/
def fixedValues : List (List Char) := ["nil", "true", "false", "iota"].map String.toList

/-- A word or an operator. -/
def lit (text : String) : R :=
  match text.toList with
  | [] => .empty
  | c :: rest =>
    if Scan.isLetter c then .token (Scan.keyword Scan.isWordChar (c :: rest))
    else .token (Scan.operator operators (c :: rest))

instance : Coe String R := ⟨lit⟩

/-- The first of several words or operators. -/
def oneOf (texts : List String) : R := any (texts.map lit)

def trivia : Trivia := fun nested text =>
  Scan.slashTrivia (fun c => Text.isBlank c && (nested || c != '\n')) false text

/-! ## Names -/

def anyName : Scan := Scan.name keywords Scan.isLetter Scan.isWordChar

def identifier : R :=
  .leaf "identifier" (Scan.name (keywords ++ fixedValues) Scan.isLetter Scan.isWordChar)

def declaredName : R := .leaf "identifier" anyName

def typeName : R := .leaf "type_identifier" anyName

def memberName : R := .leaf "field_identifier" anyName

/-- A name that stands for no symbol, as that of a label or a package. -/
def plainName : R := .token anyName

/-- The name of a type, perhaps of another package. -/
def qualifiedType : R :=
  any [.node "qualified_type" (all [plainName, ".", .field "name" typeName]), typeName]

/-! ## Literals -/

def stringLiteral : R :=
  let raw : Scan := fun text =>
    match text with
    | '`' :: rest => some (1 + Scan.lengthThrough ['`'] rest)
    | _ => none
  any [.leaf "interpreted_string_literal" (Scan.quoted ['"']), .leaf "raw_string_literal" raw]

def runeLiteral : R := .token (Scan.quoted ['\''])

/-! ## Line ends and lists -/

def lineEnd : R := .token (Scan.exactly ['\n'])

def lineEnds : R := .many lineEnd

/-- What closes a statement. -/
def terminator : R := any [lineEnd, ";"]

def sameLine : R := .guard Scan.sameLine

/-- Items in brackets that are separated by commas. -/
def listed (opening : String) (item : R) (closing : String) : R :=
  all [opening, .nested (all [optional (separated item ","), closing])]

/-- Statements or specifications in braces or brackets, each closed by its
line end. -/
def grouped (opening : String) (item : R) (closing : String) : R :=
  let skipped := all [.notAhead closing, .token Scan.anything]
  all [opening, .lined (all [many (any [terminator, item, skipped]), closing])]

def expressions : R := separated (.part .expression) ","

/-! ## Types -/

def typeElement : R :=
  all [.part .typeExpression, many (all ["|", .part .typeExpression])]

/-- Types of parameters and results behind the word `func`. -/
def signature : R :=
  all [.part .parameters,
    optional (any [all [.ahead "(", .part .parameters], .part .typeExpression])]

/-- A type that is named, perhaps with arguments. -/
def namedType : R :=
  any [.node "generic_type" (all [.field "type" qualifiedType, .part .typeArguments]),
    qualifiedType]

def typeExpression : R :=
  any [.node "parenthesized_type" (all ["(", .nested (all [.part .typeExpression, ")"])]),
    .node "pointer_type" (all ["*", .part .typeExpression]),
    .node "negated_type" (all ["~", .part .typeExpression]),
    .node "slice_type" (all ["[", "]", .part .typeExpression]),
    .node "array_type" (all ["[", .nested (any ["...", .part .expression]), "]",
      .part .typeExpression]),
    .node "struct_type" (all ["struct", .part .fields]),
    .node "interface_type" (all ["interface", .part .methods]),
    .node "map_type" (all ["map", "[", .part .typeExpression, "]", .part .typeExpression]),
    .node "channel_type" (all [optional "<-", "chan", optional "<-", .part .typeExpression]),
    .node "function_type" (all ["func", signature]),
    namedType]

/-- Parameters with names, or else types alone. -/
def parameters : R :=
  let named := all [declaredName, many (all [",", declaredName]), optional "...",
    .part .typeExpression]
  let unnamed := all [optional "...", .part .typeExpression]
  any [listed "(" named ")", listed "(" (any [named, unnamed]) ")"]

def typeParameters : R :=
  let parameter := .node "type_parameter_declaration" (all [.field "name" (all [declaredName,
    many (all [",", declaredName])]), typeElement])
  .node "type_parameter_list" (all ["[", .nested (all [separated parameter ",", "]"])])

def fields : R :=
  let names := .field "name" (all [memberName, many (all [",", memberName])])
  let field := any [all [names, .part .typeExpression], all [optional "*", namedType]]
  grouped "\x7b" (.node "field_declaration" (all [field, optional stringLiteral])) "\x7d"

def methods : R :=
  let method := .node "method_elem" (all [.field "name" memberName, .ahead "(", signature])
  grouped "\x7b" (any [method, typeElement]) "\x7d"

/-! ## Expressions -/

def literalValue : R :=
  let element := any [all [.ahead "\x7b", .part .literalValue], .part .expression]
  .node "literal_value" (listed "\x7b" (all [element, optional (all [":", element])]) "\x7d")

def callArguments : R :=
  listed "(" (all [any [.part .expression, .part .typeExpression], optional "..."]) ")"

/-- Types that cannot be read as an expression, with a value or converted. -/
def typedValue : R :=
  let begins := any [oneOf ["[", "struct", "map", "chan", "interface"], all ["<-", "chan"],
    all ["func", .part .parameters]]
  all [.ahead begins, any
    [.node "composite_literal" (all [.part .typeExpression, .ahead "\x7b", .part .literalValue]),
     .node "type_conversion_expression" (all [.part .typeExpression,
       optional (all [.ahead "(", .part .arguments])])]]

def namedLiteral : R :=
  .node "composite_literal" (all [namedType, .ahead "\x7b", .part .literalValue])

def functionLiteral : R := .node "func_literal" (all ["func", signature, .part .block])

/-- A call whose first argument is a type. -/
def allocation : R :=
  let types := all [.part .typeExpression, many (all [",", .part .expression]), optional ","]
  .node "call_expression" (all [.field "function" (.leaf "identifier" (Scan.first
      (["new", "make"].map fun word => Scan.keyword Scan.isWordChar word.toList))),
    .field "arguments" (.node "argument_list" (all ["(", .nested (all [optional types, ")"])]))])

def operand (literals : Bool) : R :=
  let parenthesised := .node "parenthesized_expression" (all ["(", .nested (all
    [any [.part .expression, .part .typeExpression], ")"])])
  let named := if literals then namedLiteral else .fail
  let base := any [functionLiteral, typedValue, named, allocation, identifier,
    .token Scan.number, stringLiteral, runeLiteral, parenthesised,
    oneOf ["nil", "true", "false", "iota"]]
  let index := all ["[", .nested (all
    [many (any [.part .expression, ":", ",", .part .typeExpression]), "]"])]
  let given := .field "arguments" (.part .arguments)
  let suffixes := any
    [.suffix "selector_expression" (some "operand") (all [".", lineEnds, .field "field" memberName]),
     .suffix "type_assertion_expression" (some "operand") (all [".", "(", .part .typeExpression,
       ")"]),
     .suffix "call_expression" (some "function") given,
     .suffix "call_expression" (some "function") (all [.field "type_arguments"
       (.part .typeArguments), given]),
     .suffix "index_expression" (some "operand") index]
  .chain base suffixes

def unaryOperator : R := oneOf ["+", "-", "!", "^", "*", "&", "<-"]

def binaryOperator : R :=
  oneOf ["||", "&&", "==", "!=", "<", "<=", ">", ">=", "+", "-", "|", "^", "*", "/", "%", "<<",
    ">>", "&", "&^"]

def operation (literals : Bool) : R :=
  let prefixed := all [lineEnds, many (all [unaryOperator, lineEnds]), .part (.operand literals)]
  all [prefixed, many (all [binaryOperator, prefixed])]

/-! ## Declarations -/

/-- The names that a specification binds, all in one field. -/
def boundNames : R :=
  .field "name" (all [declaredName, many (all [",", lineEnds, declaredName])])

def constants : R :=
  let spec := .node "const_spec" (all [boundNames,
    optional (all [optional (.part .typeExpression), "=", lineEnds, expressions])])
  .node "const_declaration" (all ["const", any [all [.ahead "(", grouped "(" spec ")"], spec]])

def variableList : R :=
  let value := all ["=", lineEnds, expressions]
  let spec := .node "var_spec" (all [boundNames,
    any [value, all [.part .typeExpression, optional value]]])
  let specs := .node "var_spec_list" (grouped "(" spec ")")
  .node "var_declaration" (all ["var", any [all [.ahead "(", specs], spec]])

def types : R :=
  let defined := .node "type_spec" (all [.field "name" typeName,
    any [all [typeParameters, .part .typeExpression], .part .typeExpression]])
  let renamed := .node "type_alias" (all [.field "name" typeName, optional typeParameters, "=",
    .part .typeExpression])
  let spec := any [renamed, defined]
  .node "type_declaration" (all ["type", any [all [.ahead "(", grouped "(" spec ")"], spec]])

def imports : R :=
  let spec := .node "import_spec" (all [optional (any [".", plainName]),
    .field "path" stringLiteral])
  .node "import_declaration" (all ["import", any [all [.ahead "(", grouped "(" spec ")"], spec]])

def functions : R :=
  let body : R := optional (.field "body" (.part .block))
  any [.node "function_declaration" (all ["func", .field "name" declaredName,
      optional typeParameters, signature, body]),
    .node "method_declaration" (all ["func", .field "receiver" (.part .parameters),
      .field "name" memberName, signature, body])]

/-! ## Statements -/

/-- What stands between the expressions of a statement. -/
def assignmentSign : R :=
  oneOf [":=", "=", "+=", "-=", "*=", "/=", "%=", "&=", "|=", "^=", "<<=", ">>=", "&^=", "<-"]

def simple : R :=
  any [all [expressions,
      optional (any [oneOf ["++", "--"],
        all [assignmentSign, lineEnds, optional "range", expressions]])]]

/-- What stands between a statement word and its block. -/
def blockHeader : R :=
  many (any [.part .headerExpression, oneOf [",", ";", "range", "++", "--"], assignmentSign])

def clauses (item : R) : R :=
  let clause := any [all ["case", many (any [item, all [",", lineEnds], assignmentSign]), ":"],
    all ["default", ":"]]
  grouped "\x7b" (any [clause, .part .statement]) "\x7d"

def switches : R :=
  any [.node "type_switch_statement" (all ["switch", blockHeader, ".", "(", "type", ")",
      clauses (.part .typeExpression)]),
    .node "expression_switch_statement" (all ["switch", blockHeader,
      clauses (.part .expression)]),
    .node "select_statement" (all ["select", clauses (.part .expression)])]

def jumps : R :=
  any [.node "return_statement" (all ["return", optional (all [sameLine, expressions])]),
    all [oneOf ["break", "continue", "goto"], optional (all [sameLine, plainName])],
    "fallthrough"]

def statement : R :=
  any [constants, variableList, types, imports, functions, jumps, switches,
    .node "package_clause" (all ["package", plainName]),
    .node "go_statement" (all ["go", .part .expression]),
    .node "defer_statement" (all ["defer", .part .expression]),
    .node "for_statement" (all ["for", blockHeader, .part .block]),
    .node "if_statement" (all ["if", blockHeader, .part .block,
      optional (all ["else", .part .statement])]),
    .part .block,
    all [plainName, ":"],
    simple]

def rule : Part → R
  | .file =>
    many (any [terminator, .part .statement, .token Scan.anything])
  | .statement => statement
  | .block => .node "block" (grouped "\x7b" (.part .statement) "\x7d")
  | .typeExpression => typeExpression
  | .typeArguments =>
    .node "type_arguments" (all ["[", .nested (all [separated typeElement ",", "]"])])
  | .parameters => .node "parameter_list" parameters
  | .fields => .node "field_declaration_list" fields
  | .methods => methods
  | .expression => operation true
  | .operand literals => operand literals
  | .headerExpression => operation false
  | .arguments => .node "argument_list" callArguments
  | .literalValue => literalValue

/-- The grammar of Go. -/
def grammar : Grammar Part := ⟨trivia, "source_file", .file, rule⟩

end ContextPack.Syntax.Go
