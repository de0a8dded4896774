import ContextPack.Text.Pieces

/-!
# Arguments

What the words of a command line ask for.  Options have a long name and mostly
a letter; a value stands in the next word, behind `=`, or right behind the
letter.  Each option is given at most once.
-/

namespace ContextPack.CommandLine

inductive OutputFormat where
  | json
  | markdown
deriving DecidableEq

def OutputFormat.ofName? (name : String) : Option OutputFormat :=
  if name = "json" then some json
  else if name = "markdown" then some markdown
  else none

/-- A context that is asked for. -/
structure BuildRequest where
  /-- Where the working tree is. -/
  path : String := "."
  range : String := "HEAD"
  budget : Option Nat := none
  format : OutputFormat := .json
  /-- The file to write to in place of the standard output. -/
  output : Option String := none
  /-- The settings file. -/
  config : Option String := none
  /-- Extensions and globs that replace those of the settings, with commas. -/
  extensions : Option String := none
  globs : Option String := none
  noIgnoreFiles : Bool := false
  fullSeeds : Bool := false
  noTimestamp : Bool := false
deriving DecidableEq

inductive Command where
  | build (request : BuildRequest)
  /-- How the program is used. -/
  | help
  /-- The version, under the name of a command if there is one. -/
  | version (command : Option String)
deriving DecidableEq

/-! ## Values -/

/-- The largest number that is taken. -/
def numberLimit : Nat := 18446744073709551615

/-- A number: digits, perhaps with a plus sign in front. -/
def number? (text : String) : Option Nat :=
  let digits := match text.toList with
    | '+' :: rest => rest
    | digits => digits
  if digits.isEmpty || !digits.all Char.isDigit then none
  else
    let value := digits.foldl (fun value digit => value * 10 + (digit.toNat - '0'.toNat)) 0
    if value ≤ numberLimit then some value else none

/-- The name of a file, which is not empty. -/
def fileName? (text : String) : Option String := if text = "" then none else some text

/-! ## Options -/

/-- What an option does to a request. -/
inductive Effect where
  /-- It takes a value, which may be refused. -/
  | takes (apply : BuildRequest → String → Option BuildRequest)
  | switches (apply : BuildRequest → BuildRequest)
  /-- It answers the whole command line. -/
  | answers (command : Command)

structure Opt where
  long : String
  letter : Option Char
  effect : Effect

/-- More words on the program's own log, which has none of the answers. -/
def verbose : Opt := ⟨"verbose", some 'v', .switches id⟩

def help : Opt := ⟨"help", some 'h', .answers .help⟩

def version (command : Option String) : Opt :=
  ⟨"version", some 'V', .answers (.version command)⟩

/-- The options before a command. -/
def generalOptions : List Opt := [verbose, help, version none]

/-- The name of the command that builds a context. -/
def buildName : String := "build"

/-- The options of the command that builds a context. -/
def buildOptions : List Opt :=
  [⟨"path", some 'p', .takes fun request text =>
      (fileName? text).map fun path => { request with path }⟩,
   ⟨"range", some 'r', .takes fun request range => some { request with range }⟩,
   ⟨"budget", some 'b', .takes fun request text =>
      (number? text).map fun budget => { request with budget := some budget }⟩,
   ⟨"format", some 'f', .takes fun request text =>
      (OutputFormat.ofName? text).map fun format => { request with format }⟩,
   ⟨"output", some 'o', .takes fun request text =>
      (fileName? text).map fun output => { request with output := some output }⟩,
   ⟨"config", some 'c', .takes fun request text =>
      (fileName? text).map fun config => { request with config := some config }⟩,
   ⟨"include-ext", some 'i', .takes fun request text =>
      some { request with extensions := some text }⟩,
   ⟨"exclude-glob", some 'e', .takes fun request text =>
      some { request with globs := some text }⟩,
   ⟨"no-gitignore", none, .switches fun request => { request with noIgnoreFiles := true }⟩,
   ⟨"full-seeds", none, .switches fun request => { request with fullSeeds := true }⟩,
   ⟨"no-timestamp", none, .switches fun request => { request with noTimestamp := true }⟩,
   verbose, help, version (some buildName)]

/-! ## Words -/

/-- What has been read so far. -/
structure Reading where
  request : BuildRequest
  /-- The long names of the options that were given. -/
  given : List String
  /-- An option whose value is the next word. -/
  pending : Option (BuildRequest → String → Option BuildRequest)

def Reading.start : Reading := ⟨{}, [], none⟩

/-- Why reading ends before the last word. -/
inductive Stop where
  /-- The words make no sense. -/
  | misused
  | answered (command : Command)
deriving DecidableEq

/-- Notes that an option is given; it may not have been given before. -/
def Reading.give (reading : Reading) (option : Opt) : Except Stop Reading :=
  if reading.given.contains option.long then .error .misused
  else .ok { reading with given := option.long :: reading.given }

/-- Gives a value to an option. -/
def Reading.apply (reading : Reading) (option : BuildRequest → String → Option BuildRequest)
    (value : String) : Except Stop Reading :=
  match option reading.request value with
  | some request => .ok { reading with request, pending := none }
  | none => .error .misused

/-- Reads a word that begins with two hyphens, these taken off. -/
def longWord (options : List Opt) (reading : Reading) (word : List Char) : Except Stop Reading := do
  let name := String.ofList (word.takeWhile fun c => c != '=')
  let value : Option String :=
    match word.dropWhile fun c => c != '=' with
    | '=' :: value => some (String.ofList value)
    | _ => none
  match options.find? fun option => option.long = name with
  | none => throw .misused
  | some option =>
    match option.effect, value with
    | .takes apply, some value => (← reading.give option).apply apply value
    | .takes apply, none => return { ← reading.give option with pending := some apply }
    | .switches apply, none =>
      let reading ← reading.give option
      return { reading with request := apply reading.request }
    | .answers command, none => throw (.answered command)
    | _, some _ => throw .misused

/-- Reads the letters behind one hyphen. -/
def letters (options : List Opt) (reading : Reading) : List Char → Except Stop Reading
  | [] => .ok reading
  | letter :: rest =>
    match options.find? fun option => option.letter = some letter with
    | none => .error .misused
    | some option =>
      match option.effect, rest with
      | .takes apply, [] => (reading.give option).map fun reading =>
          { reading with pending := some apply }
      | .takes apply, rest =>
        let value := match rest with
          | '=' :: value => value
          | value => value
        (reading.give option).bind fun reading => reading.apply apply (String.ofList value)
      | .switches apply, rest =>
        (reading.give option).bind fun reading =>
          letters options { reading with request := apply reading.request } rest
      | .answers command, _ => .error (.answered command)

inductive Word where
  /-- Two hyphens alone: no option comes behind them. -/
  | ending
  | long (text : List Char)
  | short (text : List Char)
  /-- A value, a name, or a hyphen alone. -/
  | plain (text : String)

def Word.ofText (text : String) : Word :=
  match text.toList with
  | ['-', '-'] => ending
  | '-' :: '-' :: rest => long rest
  | '-' :: c :: rest => short (c :: rest)
  | _ => plain text

/-- Reads the words behind the command. -/
def buildWords (reading : Reading) : List String → Except Stop BuildRequest
  | [] => if reading.pending.isSome then .error .misused else .ok reading.request
  | text :: rest =>
    match Word.ofText text, reading.pending with
    | .plain value, some apply =>
      (reading.apply apply value).bind fun reading => buildWords reading rest
    | .long word, none => (longWord buildOptions reading word).bind fun reading => buildWords reading rest
    | .short word, none => (letters buildOptions reading word).bind fun reading => buildWords reading rest
    | .ending, none => if rest.isEmpty then .ok reading.request else .error .misused
    | _, _ => .error .misused

/-- What help can be asked for by name. -/
def helpTopics : List String := [buildName, "help"]

/-- Whether words behind a request for help name something. -/
def isHelpTopic : List String → Bool
  | [] => true
  | [name] => helpTopics.contains name
  | _ => false

def commandWords (reading : Reading) : List String → Except Stop Command
  | [] => .error .misused
  | text :: rest =>
    match Word.ofText text with
    | .plain "build" => (buildWords .start rest).map .build
    | .plain "help" => if isHelpTopic rest then .ok .help else .error .misused
    | .long word => (longWord generalOptions reading word).bind fun reading => commandWords reading rest
    | .short word => (letters generalOptions reading word).bind fun reading => commandWords reading rest
    | _ => .error .misused

/-- What the words of a command line ask for; nothing if they make no sense. -/
def Command.ofWords? (words : List String) : Option Command :=
  match commandWords .start words with
  | .ok command => some command
  | .error (.answered command) => some command
  | .error .misused => none

end ContextPack.CommandLine
