import ContextPack.Pack.Context
import ContextPack.Settings.Record

/-!
# Context packs as records

The record form of a context, in which it is written as JSON and read back.
`truncated` is written only when it is true, and a missing one is false.
-/

namespace ContextPack

variable {α : Type}

/-! ## Writing -/

def FragmentKind.name : FragmentKind → String
  | .seedHunks => "seed_hunks"
  | .seedFile => "seed_file"
  | .placeholder => "placeholder"
  | .expansion => "expansion"

/-- A fragment with the names of its fields ascending. -/
def Fragment.fields (fragment : Fragment α) : List (String × Datum α) :=
  [("content", .text fragment.content),
   ("id", .text fragment.id),
   ("kind", .text fragment.kind.name),
   ("path", .text fragment.path),
   ("score", .real fragment.score),
   ("tokens", .integer fragment.tokens)] ++
  (if fragment.truncated then [("truncated", .boolean true)] else [])

def Fragment.toDatum (fragment : Fragment α) : Datum α := .record fragment.fields

/-- A text, and null for none. -/
def Datum.ofText? : Option String → Datum α
  | some value => .text value
  | none => .null

/-- Counters with the names of their fields ascending. -/
def ContextStats.fields (stats : ContextStats) : List (String × Datum α) :=
  [("candidates_considered", .integer stats.candidatesConsidered),
   ("candidates_dropped_size", .integer stats.candidatesDroppedSize),
   ("candidates_dropped_unreadable", .integer stats.candidatesDroppedUnreadable),
   ("cochange_commits_used", .integer stats.cochangeCommitsUsed),
   ("cochange_commits_walked", .integer stats.cochangeCommitsWalked),
   ("cochange_edges", .integer stats.cochangeEdges),
   ("cochange_pairs", .integer stats.cochangePairs),
   ("cochange_truncated", .ofText? stats.cochangeTruncated),
   ("files_scanned", .integer stats.filesScanned),
   ("graph_edges", .integer stats.graphEdges),
   ("graph_nodes", .integer stats.graphNodes),
   ("lexical_edges", .integer stats.lexicalEdges),
   ("lexical_hubs_suppressed", .integer stats.lexicalHubsSuppressed),
   ("lexical_terms", .integer stats.lexicalTerms),
   ("ppr_converged", .boolean stats.walkConverged),
   ("ppr_iterations", .integer stats.walkIterations),
   ("seed_count", .integer stats.seedCount),
   ("seeds_over_budget", .boolean stats.seedsOverBudget),
   ("sibling_candidates", .integer stats.siblingCandidates)]

def ContextStats.toDatum (stats : ContextStats) : Datum α := .record stats.fields

/-- A context with the names of its fields ascending. -/
def Context.fields (context : Context α) : List (String × Datum α) :=
  [("budget_tokens", .integer context.budgetTokens),
   ("fragment_count", .integer context.fragmentCount),
   ("fragments", .list (context.fragments.map Fragment.toDatum)),
   ("stats", context.stats.toDatum),
   ("tokens_used", .integer context.tokensUsed)]

def Context.toDatum (context : Context α) : Datum α := .record context.fields

/-! ## Reading -/

def FragmentKind.ofName? : String → Option FragmentKind
  | "seed_hunks" => some .seedHunks
  | "seed_file" => some .seedFile
  | "placeholder" => some .placeholder
  | "expansion" => some .expansion
  | _ => none

def FragmentKind.ofDatum? (value : Datum α) : Option FragmentKind :=
  match value.text? with
  | some name => FragmentKind.ofName? name
  | none => none

/-- A text, or null for none. -/
def Datum.optionalText? : Datum α → Option (Option String)
  | .text value => some (some value)
  | .null => some none
  | _ => none

variable [Scalar α]

def Fragment.ofDatum? (value : Datum α) : Option (Fragment α) := do
  let fields ← RecordDialect.json.fields?
      ["id", "path", "content", "kind", "score", "tokens", "truncated"] value
  let id ← requiredField fields "id" Datum.text?
  let path ← requiredField fields "path" Datum.text?
  let content ← requiredField fields "content" Datum.text?
  let kind ← requiredField fields "kind" FragmentKind.ofDatum?
  let score ← requiredField fields "score" Datum.real?
  let tokens ← requiredField fields "tokens" Datum.word?
  let truncated ← fieldOr fields "truncated" Datum.boolean? false
  return { id, path, content, kind, score, tokens, truncated }

def ContextStats.ofDatum? (value : Datum α) : Option ContextStats := do
  let fields ← RecordDialect.json.fields?
      ["seed_count", "files_scanned", "graph_nodes", "graph_edges", "lexical_edges",
       "lexical_terms", "lexical_hubs_suppressed", "cochange_edges", "cochange_pairs",
       "sibling_candidates", "cochange_commits_walked", "cochange_commits_used",
       "cochange_truncated", "ppr_iterations", "ppr_converged", "candidates_considered",
       "candidates_dropped_unreadable", "candidates_dropped_size", "seeds_over_budget"] value
  let count (name : String) : Option Nat := requiredField fields name Datum.word?
  let flag (name : String) : Option Bool := requiredField fields name Datum.boolean?
  let seedCount ← count "seed_count"
  let filesScanned ← count "files_scanned"
  let graphNodes ← count "graph_nodes"
  let graphEdges ← count "graph_edges"
  let lexicalEdges ← count "lexical_edges"
  let lexicalTerms ← count "lexical_terms"
  let lexicalHubsSuppressed ← count "lexical_hubs_suppressed"
  let cochangeEdges ← count "cochange_edges"
  let cochangePairs ← count "cochange_pairs"
  let siblingCandidates ← count "sibling_candidates"
  let cochangeCommitsWalked ← count "cochange_commits_walked"
  let cochangeCommitsUsed ← count "cochange_commits_used"
  let cochangeTruncated ← fieldOr fields "cochange_truncated" Datum.optionalText? none
  let walkIterations ← count "ppr_iterations"
  let walkConverged ← flag "ppr_converged"
  let candidatesConsidered ← count "candidates_considered"
  let candidatesDroppedUnreadable ← count "candidates_dropped_unreadable"
  let candidatesDroppedSize ← count "candidates_dropped_size"
  let seedsOverBudget ← flag "seeds_over_budget"
  return { seedCount, filesScanned, graphNodes, graphEdges, lexicalEdges, lexicalTerms,
           lexicalHubsSuppressed, cochangeEdges, cochangePairs, siblingCandidates,
           cochangeCommitsWalked, cochangeCommitsUsed, cochangeTruncated, walkIterations,
           walkConverged, candidatesConsidered, candidatesDroppedUnreadable,
           candidatesDroppedSize, seedsOverBudget }

def Context.ofDatum? (value : Datum α) : Option (Context α) := do
  let fields ← RecordDialect.json.fields?
      ["fragments", "fragment_count", "budget_tokens", "tokens_used", "stats"] value
  let items ← requiredField fields "fragments" Datum.items?
  let fragments ← items.mapM Fragment.ofDatum?
  let fragmentCount ← requiredField fields "fragment_count" Datum.word?
  let budgetTokens ← requiredField fields "budget_tokens" Datum.word?
  let tokensUsed ← requiredField fields "tokens_used" Datum.word?
  let stats ← requiredField fields "stats" ContextStats.ofDatum?
  return { fragments, fragmentCount, budgetTokens, tokensUsed, stats }

end ContextPack
