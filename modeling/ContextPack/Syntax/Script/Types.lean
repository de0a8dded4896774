import ContextPack.Syntax.Script.Basic

/-!
# Types of the script languages

Types as they are written in TypeScript.  Of a qualified type the first name
is an identifier and the last one a type.  The names of members are neither.
-/

namespace ContextPack.Syntax.Script

open Rule

/-- Types that are named by words of the language. -/
def predefinedType : R :=
  let words := oneOf ["any", "number", "boolean", "string", "symbol", "void", "unknown", "never",
    "object"]
  any [all ["unique", "symbol"], all [words, .notAhead "."],
    oneOf ["true", "false", "null", "undefined", "this"]]

def annotation : R := .node "type_annotation" (all [":", .part .typeExpression])

/-- What a function's result is known to be. -/
def predicate : R :=
  let subject := any [identifier, "this"]
  let statement := all [subject, "is", .part .typeExpression]
  any [.node "asserts" (all ["asserts", .notAhead "is", any [statement, subject]]),
    .node "type_predicate" statement]

def resultType : R := any [predicate, .part .typeExpression]

/-- A module that a type comes from. -/
def importedType : R :=
  let call := .node "call_expression" (all [.field "function" (.leaf "import"
    (Scan.keyword isWordChar "import".toList)), .ahead "(", .field "arguments" (.part .arguments)])
  all [call, many (all [".", .token anyWord])]

/-- The type of a value, named by the path to it. -/
def valueType : R :=
  .node "type_query" (all ["typeof", any [importedType, all [any ["this", identifier],
    many (any [all [oneOf [".", "?."], memberName],
      all [sameLine, "[", .part .typeExpression, "]"]])]],
    optional (.part .typeArguments)])

def namedType : R :=
  let nested := .node "nested_type_identifier" (all [.field "module" identifier, ".",
    many (all [.token anyWord, "."]), .field "name" typeName])
  let named := any [nested, typeName]
  any [.node "generic_type" (all [.field "name" named, .part .typeArguments]), named]

def tupleType : R :=
  let named := all [optional "...", identifier, optional "?", annotation]
  .node "tuple_type" (listed "[" (any [named, all [optional "...", .part .typeExpression,
    optional "?"]]) "]")

def functionType : R :=
  .node "function_type" (all [optional "abstract", optional "new", optional (.part .typeParameters),
    .part .parameters, "=>", resultType])

/-- A type without operators around it. -/
def primaryType : R :=
  let base := any [functionType,
    .node "parenthesized_type" (all ["(", .part .typeExpression, ")"]), .part .members, tupleType,
    predefinedType, stringLiteral, all [optional "-", number], .part .typeTemplate, importedType,
    valueType,
    .node "infer_type" (all ["infer", typeName,
      optional (all ["extends", .part .plainType, .ahead "?"])]),
    namedType]
  all [many (oneOf ["keyof", "readonly"]), base,
    many (all [sameLine, "[", optional (.part .typeExpression), "]"])]

/-- Types with signs between them. -/
def plainType : R :=
  let sign := oneOf ["|", "&"]
  all [optional sign, primaryType, many (all [sign, primaryType])]

def typeExpression : R :=
  all [.part .plainType, optional (all ["extends", .part .plainType, "?", .part .typeExpression,
    ":", .part .typeExpression])]

def typeParameters : R :=
  angled (.node "type_parameter" (all [modifiers ["const", "in", "out"], .field "name" typeName,
    optional (all ["extends", .part .typeExpression]),
    optional (all ["=", .part .typeExpression])]))

def propertyName : R :=
  any [memberName, stringLiteral, .leaf "number" Scan.number,
    .node "computed_property_name" (all ["[", .part .expression, "]"])]

/-- Members of an object type. -/
def members : R :=
  let sign := optional (oneOf ["+", "-"])
  let indexed := .node "index_signature" (all [sign, optional "readonly", "[", identifier,
    annotation, "]", sign, optional "?", annotation])
  let mapped := .node "index_signature" (all [sign, optional "readonly", "[", typeName, "in",
    .part .typeExpression, optional (all ["as", .part .typeExpression]), "]", sign, optional "?",
    optional annotation])
  let called := .node "call_signature" (all [optional "abstract",
    optional (all ["new", .ahead (oneOf ["(", "<"])]), .ahead (oneOf ["(", "<"]), .part .signature])
  let front := all [modifiers ["readonly", "get", "set", "async", "static"],
    .field "name" propertyName, optional "?"]
  let method := .node "method_signature" (all [front, .ahead (oneOf ["(", "<"]), .part .signature])
  let property := .node "property_signature" (all [front, optional annotation])
  inBraces (any [oneOf [";", ","], mapped, indexed, called, method, property])

end ContextPack.Syntax.Script
