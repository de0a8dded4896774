import ContextPack.Syntax.Script.Types

/-!
# Expressions of the script languages

An expression is operands with operators between them, taken from left to
right without regard to precedence.  A name that stands alone in an object or a
pattern, and the name of a property, are no identifiers.  A less-than sign
begins an operand only where elements or types may stand.
-/

namespace ContextPack.Syntax.Script

open Rule

/-! ## Patterns and parameters -/

def initializer : R := all ["=", .part .expression]

/-- What a value is taken apart into. -/
def pattern : R :=
  let property := any [all ["...", .part .pattern],
    all [propertyName, ":", .part .pattern, optional initializer],
    all [plainName, optional initializer]]
  let item := all [optional "...", .part .pattern, optional initializer]
  any [identifier, .node "object_pattern" (listed "\x7b" property "\x7d"),
    .node "array_pattern" (listed "[" item "]")]

def decorator : R := .node "decorator" (all ["@", .part .operand])

def parameters (dialect : Dialect) : R :=
  let access :=
    if dialect.types then modifiers ["public", "private", "protected", "override", "readonly"]
    else .empty
  let optionalMark := ifTyped dialect "?"
  let parameter := all [many decorator, access, optional "...",
    any [.part .pattern, "this"], optionalMark, ifTyped dialect annotation, optional initializer]
  .node "formal_parameters" (all ["(", optional (separated parameter ","), ")"])

def signature (dialect : Dialect) : R :=
  all [ifTyped dialect (.part .typeParameters), .part .parameters,
    ifTyped dialect (.node "type_annotation" (all [":", resultType]))]

/-! ## Functions, classes and objects -/

/-- The word that begins a function, with its marks. -/
def functionWord : R := all [optional "async", "function", optional "*"]

def functionLiteral : R :=
  .node "function_expression" (all [functionWord, optional (.field "name" identifier),
    .part .signature, .field "body" (.part .block)])

def arrowFunction : R :=
  let asynchronous := optional (all ["async", sameLine, .notAhead "=>"])
  let front := any [identifier, .part .signature]
  .node "arrow_function" (all [asynchronous, front, sameLine, "=>",
    any [all [.ahead "\x7b", .part .block], .part .expression]])

/-- A function that belongs to a class or an object. -/
def method (words : List String) : R :=
  .node "method_definition" (all [modifiers words, optional "*", .field "name" propertyName,
    optional "?", .part .signature, .field "body" (.part .block)])

def objectLiteral : R :=
  let property := any [.node "spread_element" (all ["...", .part .expression]),
    method ["async", "get", "set"],
    .node "pair" (all [.field "key" propertyName, ":", .field "value" (.part .expression)]),
    all [plainName, optional initializer]]
  .node "object" (inBraces (any [property, ","]))

def memberWords (dialect : Dialect) : List String :=
  ["static", "async", "get", "set", "accessor"] ++
    if dialect.types then
      ["public", "private", "protected", "override", "readonly", "abstract", "declare"]
    else []

/-- What stands after the name of a class: what it extends, and its body. -/
def classTail (dialect : Dialect) : R :=
  let words := memberWords dialect
  let staticBlock := .node "class_static_block" (all ["static", .part .block])
  let indexed := .node "index_signature" (all [modifiers words, "[", identifier, annotation, "]",
    annotation])
  let declared := .node "method_signature" (all [modifiers words, .field "name" propertyName,
    optional "?", .part .signature])
  let field := .node "field_definition" (all [modifiers words, propertyName,
    optional (oneOf ["?", "!"]), ifTyped dialect annotation, optional initializer])
  let extended := .node "extends_clause" (all ["extends", .part .operand,
    ifTyped dialect (.part .typeArguments)])
  let implemented := .node "implements_clause" (all ["implements",
    separated (.part .typeExpression) ","])
  let heritage := all [.ahead (oneOf ["extends", "implements"]),
    .node "class_heritage" (all [optional extended, ifTyped dialect implemented])]
  all [ifTyped dialect (.part .typeParameters), optional heritage,
    .node "class_body" (inBraces (any [";", decorator, staticBlock, method words,
      onlyIf dialect.types indexed, onlyIf dialect.types declared, field]))]

/-- The name of a class is a type where types may be written. -/
def className (dialect : Dialect) : R := if dialect.types then typeName else identifier

def classLiteral (dialect : Dialect) : R :=
  let name := all [.notAhead (oneOf ["extends", "implements"]), className dialect]
  .node "class" (all [many decorator, "class", optional name, .part .classTail])

/-! ## Elements -/

/-- A name in an element may hold hyphens. -/
def elementWord : Scan := fun text =>
  (anyWord text).map fun _ => Scan.spanLength (fun c => isWordChar c || c == '-') text

def elementName : R :=
  let word := .leaf "identifier" elementWord
  any [.node "jsx_namespace_name" (all [word, ":", word]),
    .chain word (.suffix "member_expression" (some "object") (all [".",
      .field "property" memberName]))]

def elementText : Scan := fun text =>
  match Scan.spanLength (fun c => c != '<' && c != '{') text with
  | 0 => none
  | count => some count

/-- An expression in braces, or a comment. -/
def embedded : R :=
  let inside := optional (all [optional "...", .part .expression])
  .node "jsx_expression" (all ["\x7b", inside, many (all [",", .part .expression]), "\x7d"])

/-- The sign that opens or closes a tag. -/
def tagSign (sign : String) : R := .token (Scan.exactly sign.toList)

def element (dialect : Dialect) : R :=
  let word := .token elementWord
  let name := .leaf "identifier" elementWord
  let namespaced := .node "jsx_namespace_name" (all [name, ":", name])
  let quotedValue := .token (Scan.first [fun text =>
    match text with
    | quote :: rest =>
      if quote == '"' || quote == '\'' then some (1 + Scan.lengthThrough [quote] rest) else none
    | [] => none])
  let property := any [embedded, all [any [namespaced, word],
    optional (all ["=", any [quotedValue, embedded, .part .element]])]]
  let types := ifTyped dialect (.part .typeArguments)
  let opening := all [tagSign "<", optional (all [elementName, types, many property])]
  let closing := all [tagSign "</", optional elementName, tagSign ">"]
  let child := any [.raw elementText, embedded, .part .element]
  .node "jsx_element" (all [opening, any [tagSign "/>", all [tagSign ">",
    many (all [.notAhead (tagSign "</"), child]), closing]]])

/-! ## Operands and operators -/

def arguments : R :=
  let spread := .node "spread_element" (all ["...", .part .expression])
  .node "arguments" (listed "(" (any [spread, .part .expression]) ")")

/-- What may follow an operand, except a call. -/
def access (dialect : Dialect) : R :=
  let index := all ["[", many (any [.part .expression, ","]), "]"]
  any
    [.suffix "member_expression" (some "object") (all [oneOf [".", "?."],
       .field "property" memberName]),
     .suffix "subscript_expression" (some "object") (all [optional "?.", index]),
     onlyIf dialect.types (all [sameLine, .suffix "non_null_expression" none "!"])]

/-- A call with `new`: what is made is named without a call in it. -/
def construction (dialect : Dialect) : R :=
  let parenthesised := .node "parenthesized_expression" (all ["(", .part .expression,
    many (all [",", .part .expression]), ")"])
  let base := any [identifier, parenthesised, "this", .part .objectLiteral, functionLiteral,
    classLiteral dialect]
  let made : R := .chain base (access dialect)
  let types := ifTyped dialect (.part .typeArguments)
  .node "new_expression" (all [atLeastOnce "new", .field "constructor" made, types,
    optional (all [.ahead "(", .field "arguments" (.part .arguments)])])

def operandSuffix (dialect : Dialect) : R :=
  let call (front : R) : R := .suffix "call_expression" (some "function") (all [optional "?.", front,
    .ahead "(", .field "arguments" (.part .arguments)])
  any
    [call .empty,
     onlyIf dialect.types (call (.field "type_arguments" (.part .typeArguments))),
     .suffix "call_expression" (some "function") (.field "arguments" (.part .template)),
     access dialect,
     all [sameLine, .suffix "update_expression" none (oneOf ["++", "--"])]]

def operand (dialect : Dialect) : R :=
  let item := all [optional "...", .part .expression]
  let parenthesised := .node "parenthesized_expression" (listed "(" item ")")
  let list := .node "array" (listed "[" item "]")
  let loader := all [.leaf "import" (Scan.keyword isWordChar "import".toList), .ahead "("]
  let assertion := .node "type_assertion" (all [.part .typeArguments, .part .operand])
  let base := any [stringLiteral, number, .part .template, arrowFunction, functionLiteral,
    classLiteral dialect, all ["new", ".", "target"], construction dialect,
    loader, all ["import", ".", "meta"],
    oneOf ["this", "super", "null", "true", "false", "undefined"], identifier, parenthesised, list,
    .part .objectLiteral, .token regularExpression, all [.ahead "#", .token (Scan.exactly ['#']),
      .token anyWord],
    onlyIf dialect.markup (.part .element), onlyIf dialect.types assertion]
  .chain base (operandSuffix dialect)

def unaryOperator : R :=
  oneOf ["+", "-", "!", "~", "++", "--", "typeof", "void", "delete", "await"]

def binaryOperator : R :=
  oneOf ["+", "-", "*", "/", "%", "**", "<<", ">>", ">>>", "&", "|", "^", "&&", "||", "??", "<", ">",
    "<=", ">=", "==", "!=", "===", "!==", "in", "instanceof", "=", "+=", "-=", "*=", "/=", "%=",
    "**=", "<<=", ">>=", ">>>=", "&=", "|=", "^=", "&&=", "||=", "??="]

def expression (dialect : Dialect) : R :=
  let yielded := .node "yield_expression" (all ["yield", sameLine, optional "*",
    optional (.part .expression)])
  let signed := .node "unary_expression" (all [many unaryOperator, .part .operand])
  let prefixed := any [yielded, all [.ahead unaryOperator, signed],
    all [.notAhead unaryOperator, .part .operand]]
  let typed := all [oneOf ["as", "satisfies"], any ["const", .part .typeExpression]]
  let choice := all ["?", .part .expression, ":", .part .expression]
  let suffixes := any [onlyIf dialect.types (.suffix "as_expression" none typed),
    .suffix "ternary_expression" (some "condition") choice,
    .suffix "binary_expression" (some "left") (all [binaryOperator, .field "right" prefixed])]
  .chain prefixed suffixes

end ContextPack.Syntax.Script
