import ContextPack.Syntax.Scan

/-!
# The grammar of Rust

An expression is operands with operators between them.  In a path every name
but the last is an identifier; the last one is a type where a type is expected.
What stands in the brackets of a macro or an attribute is a sequence of tokens,
in which names are identifiers and nothing is called.  Braces after a name are
read as its fields except in the header of a block.
-/

namespace ContextPack.Syntax.Rust

open Rule

inductive Part where
  | file
  | statement
  | block
  | typeExpression
  /-- Names of a path to a type; the flag tells whether it may be called. -/
  | typeSteps (calls : Bool)
  | typeArguments
  | typeParameters
  | bounds
  | whereClause
  | pattern (alternatives : Bool)
  | expression
  | headerExpression
  /-- An operand; the flag tells whether braces after a name are its fields. -/
  | operand (literals : Bool)
  | tokenTree
  /-- Tokens of a macro's definition. -/
  | template
  | fields
  | useTree
deriving DecidableEq

abbrev R := Rule Part

def operators : List (List Char) :=
  ["+", "-", "*", "/", "%", "^", "!", "&", "|", "&&", "||", "<<", ">>", "+=", "-=", "*=", "/=",
   "%=", "^=", "&=", "|=", "<<=", ">>=", "=", "==", "!=", ">", "<", ">=", "<=", "@", ".", "..",
   "...", "..=", ",", ";", ":", "::", "->", "=>", "#", "$", "?", "~", "(", ")", "[", "]",
   "\x7b", "\x7d"].map String.toList

def reserved : List (List Char) :=
  ["as", "async", "await", "break", "const", "continue", "crate", "dyn", "else", "enum", "extern",
   "false", "fn", "for", "if", "impl", "in", "let", "loop", "match", "mod", "move", "mut", "pub",
   "ref", "return", "self", "static", "struct", "super", "trait", "true", "type", "unsafe", "use",
   "where", "while", "yield"].map String.toList

/-- The words that are no identifiers among the tokens of a macro. -/
def tokenWords : List (List Char) :=
  ["as", "async", "await", "break", "const", "continue", "crate", "default", "enum", "false", "fn",
   "for", "gen", "if", "impl", "let", "loop", "match", "mod", "mut", "pub", "return", "self",
   "static", "struct", "super", "trait", "true", "type", "union", "unsafe", "use", "where",
   "while"].map String.toList

/-- The names of the types that need no declaration. -/
def primitiveTypes : List (List Char) :=
  ["u8", "i8", "u16", "i16", "u32", "i32", "u64", "i64", "u128", "i128", "isize", "usize", "f32",
   "f64", "bool", "str", "char"].map String.toList

/-- A word or an operator. -/
def lit (text : String) : R :=
  match text.toList with
  | [] => .empty
  | c :: rest =>
    if Scan.isLetter c then .token (Scan.keyword Scan.isWordChar (c :: rest))
    else .token (Scan.operator operators (c :: rest))

instance : Coe String R := ⟨lit⟩

/-- The first of several words or operators. -/
def oneOf (texts : List String) : R := any (texts.map lit)

/-- Comments in brackets may hold further ones. -/
def trivia : Trivia := fun _ text => Scan.slashTrivia Text.isBlank true text

/-! ## Names -/

/-- A word, perhaps marked as a raw one. -/
def rawWord : Scan
  | 'r' :: '#' :: rest => (Scan.word Scan.isLetter Scan.isWordChar rest).map (2 + ·)
  | text => Scan.word Scan.isLetter Scan.isWordChar text

def nameExcept (words : List (List Char)) : Scan := fun text =>
  match rawWord text with
  | none => none
  | some count => if words.contains (text.take count) then none else some count

def identifier : R := .leaf "identifier" (nameExcept reserved)

def typeName : R := .leaf "type_identifier" (nameExcept reserved)

def memberName : R := .leaf "field_identifier" (nameExcept reserved)

/-- A name that stands for no symbol. -/
def plainName : R := .token (nameExcept reserved)

/-- The name of a type that needs no declaration, alone. -/
def primitiveType : R :=
  all [.leaf "primitive_type" (Scan.first (primitiveTypes.map (Scan.keyword Scan.isWordChar))),
    .notAhead "::"]

/-- Words that begin a path and are no identifiers. -/
def pathRoot : R := oneOf ["self", "super", "crate"]

/-- A lifetime or a label; any word may be one. -/
def lifetime : R :=
  .node "lifetime" (all [.token (Scan.exactly ['\'']), .leaf "identifier" rawWord])

/-! ## Literals -/

/-- A quoted character with an escape or without one. -/
def charLiteral : Scan
  | '\'' :: '\\' :: _ :: rest => some (3 + Scan.lengthThrough ['\''] rest)
  | '\'' :: c :: '\'' :: _ => if c == '\'' then none else some 3
  | _ => none

/-- A raw string: hash signs, quotes, and the same backwards at its end. -/
def rawString : Scan
  | 'r' :: rest =>
    let hashes := Scan.spanLength (· == '#') rest
    match rest.drop hashes with
    | '"' :: body =>
      some (hashes + 2 + Scan.lengthThrough ('"' :: List.replicate hashes '#') body)
    | _ => none
  | _ => none

/-- Letters in front of a string or character. -/
def lettered (letters : List Char) (scan : Scan) : Scan := fun text =>
  match text with
  | c :: rest => if letters.contains c then (scan rest).map (1 + ·) else scan text
  | [] => none

def literal : R :=
  any [.leaf "string_literal" (Scan.first
      [lettered ['b', 'c'] (Scan.quoted ['"']), lettered ['b', 'c'] rawString]),
    .token (lettered ['b'] charLiteral), .token Scan.number, oneOf ["true", "false"]]

/-! ## Lists and tokens -/

/-- Items in brackets that are separated by commas. -/
def listed (opening : String) (item : R) (closing : String) : R :=
  all [opening, optional (separated item ","), closing]

def angle (sign : Char) : R := .token (Scan.exactly [sign])

def angled (item : R) : R := all [angle '<', optional (separated item ","), angle '>']

def bracketPairs : List (String × String) := [("(", ")"), ("[", "]"), ("\x7b", "\x7d")]

def bracketed (item : R) : R :=
  any (bracketPairs.map fun (opening, closing) =>
    all [opening, many (all [.notAhead closing, item]), closing])

/-- A single token that opens or closes no bracket. -/
def singleToken : R :=
  let closer := oneOf (bracketPairs.map Prod.snd)
  let words := .token (Scan.first (tokenWords.map (Scan.keyword Scan.isWordChar)))
  let primitive := .token (Scan.first (primitiveTypes.map (Scan.keyword Scan.isWordChar)))
  any [literal, lifetime, words, primitive, .leaf "identifier" rawWord,
    all [.notAhead closer, .token Scan.anything]]

def tokenTree : R := bracketed (any [.part .tokenTree, singleToken])

/-- In a macro's definition a name after a dollar sign stands for no symbol, nor
does the kind of what it matches. -/
def template : R :=
  let placeholder : R := all [.token (Scan.exactly ['$']), .raw rawWord,
    optional (all [":", .token rawWord])]
  bracketed (any [placeholder, .part .template, singleToken])

def attributeItem : R :=
  let path := all [any [pathRoot, identifier], many (all ["::", identifier])]
  .node "attribute_item" (all ["#", optional "!", "[", path,
    optional (any [all ["=", .part .expression], .part .tokenTree]), "]"])

def attributeItems : R := many attributeItem

/-! ## Types -/

/-- What is called with types in parentheses, as a function type. -/
def callTypes : R :=
  all [listed "(" (all [optional (all [plainName, ":"]), .part .typeExpression]) ")",
    optional (all ["->", .part .typeExpression])]

/-- A qualified type in angle brackets, which begins a path. -/
def selfType : R :=
  all [angle '<', .part .typeExpression, optional (all ["as", .part .typeExpression]), angle '>']

/-- A name in front of the name of a type, with its sign. -/
def pathStep : R := any [all [pathRoot, "::"], all [identifier, "::", .notAhead (angle '<')]]

/-- What may stand in front of all names of a path to a type. -/
def pathOpening : R := any [all [selfType, "::", optional "::"], "::"]

/-- The names of a path to a type.  Arguments may end it or stand in it; what is
called with types may end it. -/
def typeSteps (calls : Bool) : R :=
  let qualified := .node "scoped_type_identifier" (all [.field "path" (atLeastOnce pathStep),
    .field "name" typeName])
  let named := any [qualified, all [.notAhead pathStep, typeName]]
  let generic := .node "generic_type" (all [.field "type" named, optional "::",
    .part .typeArguments, optional (all ["::", .part (.typeSteps calls)])])
  let called := .node "function_type" (all [.field "trait" named, callTypes])
  any [generic, if calls then called else .fail, named]

def typePath (calls : Bool) : R :=
  any [.node "scoped_type_identifier" (all [.field "path" pathOpening,
      .field "name" (.part (.typeSteps calls))]),
    .part (.typeSteps calls)]

/-- A path to a type among values, where arguments follow a sign. -/
def valueTypePath : R :=
  let inner := all [typeName, "::", .part .typeArguments, "::"]
  all [optional pathOpening, many (any [pathStep, inner]), typeName,
    optional (all ["::", .part .typeArguments])]

def macroCall (path : R) : R :=
  .node "macro_invocation" (all [.field "macro" path, "!", .part .tokenTree])

/-- A path of identifiers. -/
def plainPath : R :=
  let suffix := .suffix "scoped_identifier" (some "path") (all ["::", .field "name" identifier])
  .chain (any [identifier, all [pathRoot, .ahead "::"], .ahead "::"]) suffix

def foreignMark : R := all ["extern", optional literal]

/-- A type that is told by its bounds, behind a word. -/
def boundedType (kind word : String) : R :=
  .node kind (all [lit word, .ahead (any [identifier, lifetime, oneOf ["(", "?", "for", "::", "<",
    "self", "super", "crate"]]), .part .bounds])

def typeExpression : R :=
  let lifetimes := all ["for", .part .typeParameters]
  any [.node "tuple_type" (listed "(" (.part .typeExpression) ")"),
    .node "array_type" (all ["[", .part .typeExpression, optional (all [";", .part .expression]),
      "]"]),
    .node "reference_type" (all [oneOf ["&", "&&"], optional lifetime, optional "mut",
      .part .typeExpression]),
    .node "pointer_type" (all ["*", oneOf ["const", "mut"], .part .typeExpression]),
    "!",
    boundedType "abstract_type" "impl", boundedType "dynamic_type" "dyn",
    .node "removed_trait_bound" (all ["?", .part .typeExpression]),
    .node "function_type" (all [optional lifetimes, optional "unsafe", optional foreignMark, "fn",
      callTypes]),
    .node "higher_ranked_trait_bound" (all [lifetimes, .part .typeExpression]),
    macroCall plainPath,
    primitiveType, typePath true]

def bounds : R :=
  let bound := any [lifetime, all ["(", .part .bounds, ")"], .part .typeExpression]
  optional (separated bound "+")

def typeArguments : R :=
  let bound := any [all ["=", .part .typeExpression], all [":", .part .bounds],
    many (all ["+", .part .bounds])]
  angled (any [lifetime, all [.part .typeExpression, bound], all [optional "-", literal],
    .part .block])

def typeParameters : R :=
  let constant := all ["const", identifier, ":", .part .typeExpression,
    optional (all ["=", any [literal, all ["-", literal], identifier, .part .block]])]
  let parameter := all [any [lifetime, typeName], optional (all [":", .part .bounds]),
    optional (all ["=", .part .typeExpression])]
  angled (all [attributeItems, any [constant, parameter]])

def whereClause : R :=
  let predicate := all [any [lifetime, .part .typeExpression], ":", .part .bounds]
  optional (all ["where", optional (separated predicate ",")])

/-! ## Patterns -/

def fieldPattern : R :=
  all [attributeItems, any [oneOf [".."],
    all [any [plainName, .token Scan.number], ":", .part (.pattern true)],
    all [optional "ref", optional "mut", plainName]]]

/-- A path of identifiers, perhaps with type arguments at its end. -/
def patternPath : R := all [plainPath, optional (all ["::", .part .typeArguments])]

def patternItem : R :=
  any [literal, oneOf ["&", "&&", "mut", "ref", "box", "@", "..", "..=", "...", "-", "_"],
    all ["const", .part .block],
    listed "(" (.part (.pattern true)) ")", listed "[" (.part (.pattern true)) "]",
    macroCall plainPath,
    all [typePath false, listed "\x7b" fieldPattern "\x7d"],
    all [selfType, many (all ["::", identifier])],
    all [patternPath, optional (listed "(" (.part (.pattern true)) ")")]]

/-! ## Expressions -/

def label : R := all [lifetime, ":"]

def conditional : R :=
  .node "if_expression" (all ["if", .part .headerExpression, .part .block,
    optional (all ["else", any [all [.ahead "if", .part .expression], .part .block]])])

/-- Whether an expression goes on after a block. -/
def goesOn : R := oneOf [".", "?"]

def matching : R :=
  let value := any [all [.part .block, .notAhead (any [goesOn, oneOf ["as", "=="]])],
    .part .expression]
  let arm := .node "match_arm" (all [attributeItems, .part (.pattern true),
    optional (all ["if", .part .expression]), "=>", value, optional ","])
  let skipped := all [.notAhead "\x7d", .token Scan.anything]
  .node "match_expression" (all ["match", .part .headerExpression, "\x7b",
    many (any [attributeItem, arm, skipped]), "\x7d"])

/-- A block behind a word that says how it is run. -/
def markedBlock (word : String) : R := .node (word ++ "_block") (all [lit word, .part .block])

def blockExpression : R :=
  let labelled (kind : String) (rule : R) : R := .node kind (all [optional label, rule])
  any [conditional, matching,
    labelled "loop_expression" (all ["loop", .part .block]),
    labelled "while_expression" (all ["while", .part .headerExpression, .part .block]),
    labelled "for_expression" (all ["for", .part (.pattern true), "in", .part .headerExpression,
      .part .block]),
    all [optional label, .part .block],
    any (["unsafe", "const", "try", "gen"].map markedBlock),
    .node "async_block" (all ["async", optional "gen", optional "move", .part .block])]

/-- A part of an expression that keeps to the rule on braces around it. -/
def same (literals : Bool) : R := .part (if literals then .expression else .headerExpression)

def closure (literals : Bool) : R :=
  let parameter := all [attributeItems, .part (.pattern false),
    optional (all [":", .part .typeExpression])]
  let bar := .token (Scan.exactly ['|'])
  let parameters := any ["||", all [bar, optional (separated parameter ","), bar]]
  .node "closure_expression" (all [optional "static", optional "async", optional "move", parameters,
    any [all ["->", .part .typeExpression, .part .block], same literals]])

def fieldValue : R :=
  all [attributeItems, any [all ["..", optional (.part .expression)],
    all [any [plainName, .token Scan.number], ":", .part .expression], identifier]]

def structLiteral : R :=
  .node "struct_expression" (all [.field "name" valueTypePath, listed "\x7b" fieldValue "\x7d"])

/-- Words that leave what is around them, perhaps with a value. -/
def leaving (literals : Bool) : R :=
  any [.node "return_expression" (all ["return", optional (same literals)]),
    .node "yield_expression" (all ["yield", optional (same literals)]),
    .node "break_expression" (all ["break", optional lifetime, optional (same literals)]),
    .node "continue_expression" (all ["continue", optional lifetime])]

def operand (literals : Bool) : R :=
  let turbofish := all ["::", .field "type_arguments" (.part .typeArguments)]
  let typed := .node "generic_type" (all [.field "type" typeName, turbofish, .ahead "::"])
  let inside := many (any [.part .expression, oneOf [",", ";"], attributeItem])
  let named := if literals then structLiteral else .fail
  let base := any [blockExpression, closure literals, leaving literals, literal, named,
    .node "parenthesized_expression" (all ["(", inside, ")"]),
    .node "array_expression" (all ["[", inside, "]"]), typed,
    .node "bracketed_type" selfType, identifier, pathRoot, all [.ahead "::"]]
  let member := any [memberName, .leaf "integer_literal" Scan.number]
  let suffixes := any
    [.suffix "scoped_identifier" (some "path") (all ["::", .field "name" identifier]),
     .suffix "generic_function" (some "function") turbofish,
     .suffix "macro_invocation" (some "macro") (all ["!", .part .tokenTree]),
     .suffix "await_expression" none (all [".", "await"]),
     .suffix "field_expression" (some "value") (all [".", .field "field" member]),
     .suffix "call_expression" (some "function") (.field "arguments"
       (.node "arguments" (all ["(", inside, ")"]))),
     .suffix "index_expression" none (all ["[", inside, "]"]),
     .suffix "try_expression" none "?"]
  .chain base suffixes

def rangeSign : R := oneOf ["..", "..=", "..."]

def prefixSign : R :=
  any [oneOf ["-", "*", "!"], all [oneOf ["&", "&&"], optional "mut"], rangeSign,
    all ["let", .part (.pattern true), "="]]

def binarySign : R :=
  oneOf ["+", "-", "*", "/", "%", "^", "&", "|", "&&", "||", "<<", ">>", "==", "!=", "<", ">",
    "<=", ">=", "=", "+=", "-=", "*=", "/=", "%=", "^=", "&=", "|=", "<<=", ">>="]

def operation (literals : Bool) : R :=
  let prefixed := all [many prefixSign, .part (.operand literals)]
  let blockAhead := if literals then .fail else .ahead "\x7b"
  let range := all [rangeSign, any [blockAhead, prefixed, .empty]]
  let later := many (any [all ["as", .part .typeExpression], range, all [binarySign, prefixed]])
  any [all [prefixed, later], rangeSign]

/-! ## Items -/

def visibility : R :=
  let scope := any [all ["in", plainPath], oneOf ["self", "super", "crate"]]
  any [all ["pub", optional (all ["(", scope, ")"])], all ["crate", .notAhead "::"]]

def parameters : R :=
  let receiver := all [optional "&", optional lifetime, optional "mut", "self",
    optional (all [":", .part .typeExpression])]
  let typed := all [.part (.pattern true), ":", .part .typeExpression]
  listed "(" (all [attributeItems, any [receiver, typed, "...", .part .typeExpression]]) ")"

/-- A function with a body, or the signature of one. -/
def function : R :=
  let modifiers := many (any [oneOf ["async", "default", "const", "unsafe"], foreignMark])
  let front := all [modifiers, "fn", .field "name" identifier, optional (.part .typeParameters),
    parameters, optional (all ["->", .part .typeExpression]), .part .whereClause]
  any [.node "function_item" (all [front, .field "body" (.part .block)]),
    .node "function_signature_item" (all [front, ";"])]

/-- The fields of a structure or a variant, named or counted. -/
def fields : R :=
  let named := .node "field_declaration" (all [attributeItems, optional visibility, plainName, ":",
    .part .typeExpression])
  let counted := all [attributeItems, optional visibility, .part .typeExpression]
  any [.node "field_declaration_list" (listed "\x7b" named "\x7d"),
    .node "ordered_field_declaration_list" (listed "(" counted ")")]

def recordItem (kind word : String) : R :=
  .node kind (all [lit word, .field "name" typeName, optional (.part .typeParameters),
    .part .whereClause, optional (.part .fields), .part .whereClause, optional ";"])

def enumeration : R :=
  let variant := .node "enum_variant" (all [attributeItems, optional visibility,
    .field "name" identifier, optional (.part .fields), optional (all ["=", .part .expression])])
  .node "enum_item" (all ["enum", .field "name" typeName, optional (.part .typeParameters),
    .part .whereClause, listed "\x7b" variant "\x7d"])

/-- A type with a value is defined; one that is only named belongs to a trait. -/
def typeItem : R :=
  let front := all ["type", .field "name" typeName, optional (.part .typeParameters),
    optional (all [":", .part .bounds]), .part .whereClause]
  any [.node "type_item" (all [front, "=", .part .typeExpression, .part .whereClause, ";"]),
    .node "associated_type" (all [front, ";"])]

def constant (kind word : String) : R :=
  .node kind (all [lit word, optional "ref", optional "mut", .field "name" identifier, ":",
    .part .typeExpression, optional (all ["=", .part .expression]), ";"])

def moduleItem : R :=
  .node "mod_item" (all [optional "unsafe", "mod", .field "name" identifier,
    any [";", .part .block]])

def traitItem : R :=
  .node "trait_item" (all [optional "unsafe", optional "auto", "trait", .field "name" typeName,
    optional (.part .typeParameters), optional (all [":", .part .bounds]), .part .whereClause,
    .part .block])

/-- What is implemented, of a trait or of the type itself. -/
def implementation : R :=
  let type := .field "type" (.part .typeExpression)
  let target := any [all [.field "trait" (.part .typeExpression), "for", type], type]
  .node "impl_item" (all [optional "default", optional "unsafe", "impl",
    optional (.part .typeParameters), optional "const", optional "!", target, .part .whereClause,
    any [";", .part .block]])

def macroItem : R :=
  .node "macro_definition" (all ["macro_rules", "!", .field "name" identifier, .part .template,
    optional ";"])

def useTree : R :=
  any [.node "use_list" (listed "\x7b" (.part .useTree) "\x7d"), "*",
    all [any [pathRoot, identifier], optional (any [all ["::", .part .useTree],
      all ["as", identifier]])],
    all ["::", .part .useTree]]

def useItem : R := .node "use_declaration" (all ["use", .part .useTree, ";"])

def externItem : R :=
  any [.node "extern_crate_declaration" (all ["extern", "crate", any ["self", identifier],
      optional (all ["as", identifier]), ";"]),
    .node "foreign_mod_item" (all [optional "unsafe", foreignMark, .part .block])]

def binding : R :=
  .node "let_declaration" (all ["let", .part (.pattern true),
    optional (all [":", .part .typeExpression]), optional (all ["=", .part .expression]),
    optional (all ["else", .part .block]), optional ";"])

def statement : R :=
  let item := any [function, recordItem "struct_item" "struct", recordItem "union_item" "union",
    enumeration, typeItem, constant "const_item" "const", constant "static_item" "static",
    moduleItem, traitItem, implementation, useItem, externItem]
  any [";", attributeItem, all [optional visibility, item], macroItem, binding,
    all [blockExpression, .notAhead goesOn],
    .part .expression]

/-- A first line that names a program to run the file with. -/
def interpreterLine : Scan
  | '#' :: '!' :: c :: rest => if c == '[' then none else some (3 + Scan.lineLength rest)
  | _ => none

def rule : Part → R
  | .file =>
    all [optional (.raw interpreterLine), many (any [.part .statement, .token Scan.anything])]
  | .statement => statement
  | .block =>
    let skipped := all [.notAhead "\x7d", .token Scan.anything]
    .node "block" (all ["\x7b", many (any [.part .statement, skipped]), "\x7d"])
  | .typeExpression => typeExpression
  | .typeSteps calls => typeSteps calls
  | .typeArguments => .node "type_arguments" typeArguments
  | .typeParameters => .node "type_parameters" typeParameters
  | .bounds => bounds
  | .whereClause => whereClause
  | .pattern alternatives =>
    .node "match_pattern" (atLeastOnce (if alternatives then any [patternItem, "|"]
      else patternItem))
  | .expression => operation true
  | .headerExpression => operation false
  | .operand literals => operand literals
  | .tokenTree => .node "token_tree" tokenTree
  | .template => .node "token_tree_pattern" template
  | .fields => fields
  | .useTree => useTree

/-- The grammar of Rust. -/
def grammar : Grammar Part := ⟨trivia, "source_file", .file, rule⟩

end ContextPack.Syntax.Rust
