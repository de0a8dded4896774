import ContextPack.Change
import ContextPack.Decimal.Fixed
import ContextPack.Pack.Context
import ContextPack.Path.Basic

/-!
# Markdown output

A context as a Markdown document: a summary, then a section for each fragment
with its content in a fenced block.  The fence is longer than any run of
backticks in the content, so that no content can close its own block.
-/

namespace ContextPack

namespace Markdown

/-- The length of the longest run of backticks; `run` is the length of the
run that the text continues. -/
def longestRun (run : Nat) : List Char → Nat
  | [] => run
  | c :: rest => if c = '`' then longestRun (run + 1) rest else max run (longestRun 0 rest)

/-- A fence for a content: at least three backticks, and more than any run in
it. -/
def fence (content : List Char) : List Char :=
  List.replicate (max 3 (longestRun 0 content + 1)) '`'

/-- A fenced block with the name of a language; the content is closed with a
line end. -/
def block (language : String) (content : List Char) : List Char :=
  let mark := fence content
  mark ++ language.toList ++ '\n' :: FileChange.closeLine content ++ mark ++ ['\n']

/-- What the heading of a fragment says about it. -/
def label : FragmentKind → String
  | .seedHunks => "changed, hunks"
  | .seedFile => "changed"
  | .placeholder => "changed, unavailable"
  | .expansion => "related"

/-- The language that the block of a fragment is marked with. -/
def language (path : String) : FragmentKind → String
  | .seedHunks => "diff"
  | .placeholder => "text"
  | _ => (Path.extension? path).getD ""

variable {α : Type}

/-- The section of a fragment; `fourPlaces` spells a score. -/
def fragmentSection (fourPlaces : α → String) (fragment : Fragment α) : List Char :=
  let score :=
    if fragment.kind = .expansion then "Score: " ++ fourPlaces fragment.score ++ "\n\n" else ""
  let note := if fragment.truncated then "_Truncated to fit the budget._\n\n" else ""
  ("\n## `" ++ fragment.path ++ "` (" ++ label fragment.kind ++ ")\n\n" ++ score ++ note).toList ++
    block (language fragment.path fragment.kind) fragment.content.toList

private def number (n : Nat) : String := toString n

/-- The lines above the fragments. -/
def summary (timestamp : Option String) (context : Context α) : String :=
  let stats := context.stats
  let made :=
    match timestamp with
    | some time => "Generated: " ++ time ++ "\n\n"
    | none => ""
  let cut :=
    match stats.cochangeTruncated with
    | some reason =>
      "- History walk truncated (" ++ reason ++ ") after " ++ number stats.cochangeCommitsWalked ++
        " commit(s)\n"
    | none => ""
  let warning :=
    if stats.seedsOverBudget then "- Warning: changed files alone exceed the token budget\n" else ""
  "# Diff Context\n\n" ++ made ++
    "- Fragments: " ++ number context.fragmentCount ++ " (" ++ number stats.seedCount ++
      " changed file(s))\n" ++
    "- Tokens: " ++ number context.tokensUsed ++ " / " ++ number context.budgetTokens ++ "\n" ++
    "- Graph: " ++ number stats.graphNodes ++ " node(s), " ++ number stats.graphEdges ++
      " edge(s)\n" ++
    "- Signals: " ++ number stats.lexicalEdges ++ " lexical edge(s) from " ++
      number stats.lexicalTerms ++ " term(s), " ++ number stats.lexicalHubsSuppressed ++
      " hub(s) suppressed; " ++ number stats.cochangePairs ++ " co-change pair(s) from " ++
      number stats.cochangeCommitsUsed ++ " commit(s)\n" ++
    cut ++ warning

end Markdown

/-- A context as a Markdown document, with the time of its making if given. -/
def Context.renderMarkdown {α : Type} (fourPlaces : α → String) (timestamp : Option String)
    (context : Context α) : String :=
  String.ofList ((Markdown.summary timestamp context).toList ++
    context.fragments.flatMap (Markdown.fragmentSection fourPlaces))

end ContextPack
