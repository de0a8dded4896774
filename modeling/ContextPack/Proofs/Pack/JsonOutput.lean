import ContextPack.Pack.JsonOutput
import ContextPack.Proofs.Data.JsonValue
import ContextPack.Proofs.Data.Overlay
import ContextPack.Proofs.Data.Sorting
import ContextPack.Proofs.Decimal.Layout

namespace ContextPack

/-!
# A context written as JSON is read as it was

Every field is found again under its name, and what is left out stands for its
default.  The text has nothing that the reader would refuse: the counts fit a
word, the scores are spelled as reals, and four levels of nesting are few.
-/

variable {α : Type}

/-! ## Counts -/

/-- Whatever was counted in a run. -/
def ContextStats.counts (stats : ContextStats) : List Nat :=
  [stats.seedCount, stats.filesScanned, stats.graphNodes, stats.graphEdges, stats.lexicalEdges,
   stats.lexicalTerms, stats.lexicalHubsSuppressed, stats.cochangeEdges, stats.cochangePairs,
   stats.siblingCandidates, stats.cochangeCommitsWalked, stats.cochangeCommitsUsed,
   stats.walkIterations, stats.candidatesConsidered, stats.candidatesDroppedUnreadable,
   stats.candidatesDroppedSize]

/-- All counts of a context, each of them held in a word. -/
def Context.counts (context : Context α) : List Nat :=
  context.fragmentCount :: context.budgetTokens :: context.tokensUsed ::
    (context.fragments.map Fragment.tokens ++ context.stats.counts)

theorem Datum.word?_natCast {n : Nat} (fits : n < wordModulus) :
    (Datum.integer (n : Int) : Datum α).word? = some n :=
  if_pos (Nat.le_of_lt_succ fits)

theorem JsonText.fitsWord_natCast {n : Nat} (fits : n < wordModulus) : fitsWord n = true := by
  rw [wordModulus] at fits
  simp only [fitsWord, Bool.and_eq_true, decide_eq_true_eq]
  omega

/-! ## Fields -/

/-- A field does not matter to the look-up of another name. -/
theorem Datum.lookup_insert {name key : String} (other : key ≠ name) (value : Datum α)
    (before after : List (String × Datum α)) :
    Datum.lookup name (before ++ (key, value) :: after) = Datum.lookup name (before ++ after) := by
  induction before with
  | nil => exact Datum.lookup_cons_of_ne other value after
  | cons field before inductionHypothesis =>
      rw [List.cons_append, List.cons_append, Datum.lookup, Datum.lookup, inductionHypothesis]

section Fields

variable {β γ : Type} {fields : List (String × Datum α)} {name : String} {value : Datum α}
  {read : Datum α → Option β} {x : β}

/-- A field that is there is read, and reading goes on with it. -/
theorem requiredField_bind (found : Datum.lookup name fields = some value)
    (reads : read value = some x) (next : β → Option γ) :
    (requiredField fields name read).bind next = next x := by
  have isValue : requiredField fields name read = read value := by
    rw [requiredField, found]
  rw [isValue, reads, Option.bind_some]

theorem fieldOr_bind (found : Datum.lookup name fields = some value) (reads : read value = some x)
    (default : β) (next : β → Option γ) :
    (fieldOr fields name read default).bind next = next x := by
  have isValue : fieldOr fields name read default = read value := by
    rw [fieldOr, found]
  rw [isValue, reads, Option.bind_some]

/-- A field that is left out stands for its default. -/
theorem fieldOr_bind_of_none (missing : Datum.lookup name fields = none) (default : β)
    (next : β → Option γ) : (fieldOr fields name read default).bind next = next default := by
  rw [fieldOr, missing, Option.bind_some]

end Fields

/-! ## Records -/

theorem FragmentKind.ofDatum?_name (kind : FragmentKind) :
    FragmentKind.ofDatum? (.text kind.name : Datum α) = some kind := by
  cases kind with
  | seedHunks => rfl
  | seedFile => rfl
  | placeholder => rfl
  | expansion => rfl

theorem Datum.optionalText?_ofText? (text : Option String) :
    (Datum.ofText? text : Datum α).optionalText? = some text := by
  cases text with
  | none => rfl
  | some text => rfl

/-- Counters are read from their record; null stands for no reason. -/
theorem ContextStats.ofDatum?_toDatum {stats : ContextStats}
    (fits : ∀ count ∈ stats.counts, count < wordModulus) :
    ContextStats.ofDatum? (stats.toDatum : Datum α) = some stats := by
  simp only [ContextStats.counts, List.forall_mem_cons] at fits
  rcases fits with ⟨seedCount, filesScanned, graphNodes, graphEdges, lexicalEdges, lexicalTerms,
    lexicalHubsSuppressed, cochangeEdges, cochangePairs, siblingCandidates, cochangeCommitsWalked,
    cochangeCommitsUsed, walkIterations, candidatesConsidered, candidatesDroppedUnreadable,
    candidatesDroppedSize, -⟩
  have count (name : String) {n : Nat} {γ : Type}
      (found : Datum.lookup name (stats.fields : List (String × Datum α)) = some (.integer n))
      (fits : n < wordModulus) (next : Nat → Option γ) :
      (requiredField (stats.fields : List (String × Datum α)) name Datum.word?).bind next = next n :=
    requiredField_bind found (Datum.word?_natCast fits) next
  have flag (name : String) {value : Bool} {γ : Type}
      (found : Datum.lookup name (stats.fields : List (String × Datum α)) = some (.boolean value))
      (next : Bool → Option γ) :
      (requiredField (stats.fields : List (String × Datum α)) name Datum.boolean?).bind next =
        next value :=
    requiredField_bind found (x := value) rfl next
  rw [ContextStats.ofDatum?, ContextStats.toDatum, RecordDialect.fields?]
  dsimp only [Option.bind_eq_bind, Option.bind_some]
  -- The reader asks in an order of its own; a look-up of a name computes.
  rw [count "seed_count" rfl seedCount, count "files_scanned" rfl filesScanned,
    count "graph_nodes" rfl graphNodes, count "graph_edges" rfl graphEdges,
    count "lexical_edges" rfl lexicalEdges, count "lexical_terms" rfl lexicalTerms,
    count "lexical_hubs_suppressed" rfl lexicalHubsSuppressed,
    count "cochange_edges" rfl cochangeEdges, count "cochange_pairs" rfl cochangePairs,
    count "sibling_candidates" rfl siblingCandidates,
    count "cochange_commits_walked" rfl cochangeCommitsWalked,
    count "cochange_commits_used" rfl cochangeCommitsUsed,
    fieldOr_bind rfl (Datum.optionalText?_ofText? stats.cochangeTruncated),
    count "ppr_iterations" rfl walkIterations, flag "ppr_converged" rfl,
    count "candidates_considered" rfl candidatesConsidered,
    count "candidates_dropped_unreadable" rfl candidatesDroppedUnreadable,
    count "candidates_dropped_size" rfl candidatesDroppedSize, flag "seeds_over_budget" rfl]
  rfl

theorem Fragment.lookup_fields {name : String} (other : "truncated" ≠ name) (fragment : Fragment α) :
    Datum.lookup name fragment.fields =
      Datum.lookup name { fragment with truncated := false }.fields := by
  rcases fragment with ⟨id, path, content, kind, score, tokens, truncated⟩
  cases truncated with
  | false => rfl
  | true => exact Datum.lookup_insert other _ _ []

theorem Context.lookup_stampedFields {name : String} (other : "generated_at" ≠ name)
    (timestamp : Option String) (context : Context α) :
    Datum.lookup name (context.stampedFields timestamp) = Datum.lookup name context.fields := by
  cases timestamp with
  | none => rfl
  | some time =>
      rw [Context.stampedFields, Datum.lookup_insert other, List.take_append_drop]

section Records

variable [Scalar α]

/-- A fragment is read from its record; a missing `truncated` is false. -/
theorem Fragment.ofDatum?_toDatum {fragment : Fragment α} (fits : fragment.tokens < wordModulus) :
    Fragment.ofDatum? fragment.toDatum = some fragment := by
  have field {β γ : Type} (name : String) (other : "truncated" ≠ name) {value : Datum α}
      (found : Datum.lookup name { fragment with truncated := false }.fields = some value)
      {read : Datum α → Option β} {x : β} (reads : read value = some x) (next : β → Option γ) :
      (requiredField fragment.fields name read).bind next = next x :=
    requiredField_bind ((Fragment.lookup_fields other fragment).trans found) reads next
  -- `truncated` is the one field that the writer may leave out.
  have truncated {γ : Type} (next : Bool → Option γ) :
      (fieldOr fragment.fields "truncated" Datum.boolean? false).bind next =
        next fragment.truncated := by
    rcases fragment with ⟨id, path, content, kind, score, tokens, truncated⟩
    cases truncated with
    | false => exact fieldOr_bind_of_none rfl false next
    | true =>
        have written : (Datum.boolean true : Datum α).boolean? = some true := rfl
        exact fieldOr_bind rfl written false next
  rw [Fragment.ofDatum?, Fragment.toDatum, RecordDialect.fields?]
  dsimp only [Option.bind_eq_bind, Option.bind_some]
  have text (value : String) : (Datum.text value : Datum α).text? = some value := rfl
  have real (value : α) : (Datum.real value).real? = some value := rfl
  rw [field "id" (by decide) rfl (text fragment.id),
    field "path" (by decide) rfl (text fragment.path),
    field "content" (by decide) rfl (text fragment.content),
    field "kind" (by decide) rfl (FragmentKind.ofDatum?_name fragment.kind),
    field "score" (by decide) rfl (real fragment.score),
    field "tokens" (by decide) rfl (Datum.word?_natCast fits), truncated]
  rfl

/-- Fragments are read in the order in which they were written. -/
theorem Fragment.mapM_ofDatum? {fragments : List (Fragment α)}
    (fits : ∀ fragment ∈ fragments, fragment.tokens < wordModulus) :
    (fragments.map Fragment.toDatum).mapM Fragment.ofDatum? = some fragments := by
  rw [List.mapM_map, mapM_eq_some_map fun fragment => fragment, List.map_id']
  intro fragment member
  exact Fragment.ofDatum?_toDatum (fits fragment member)

/-- A context is read from its record, and the time of its making is passed
over. -/
theorem Context.ofDatum?_stampedFields {context : Context α}
    (fits : ∀ count ∈ context.counts, count < wordModulus) (timestamp : Option String) :
    Context.ofDatum? (.record (context.stampedFields timestamp)) = some context := by
  simp only [Context.counts, List.forall_mem_cons, List.forall_mem_append, List.forall_mem_map]
    at fits
  rcases fits with ⟨fragmentCount, budgetTokens, tokensUsed, fragments, stats⟩
  have field {β γ : Type} (name : String) (other : "generated_at" ≠ name) {value : Datum α}
      (found : Datum.lookup name context.fields = some value) {read : Datum α → Option β} {x : β}
      (reads : read value = some x) (next : β → Option γ) :
      (requiredField (context.stampedFields timestamp) name read).bind next = next x :=
    requiredField_bind ((Context.lookup_stampedFields other timestamp context).trans found) reads next
  have items : (Datum.list (context.fragments.map Fragment.toDatum)).items? =
      some (context.fragments.map Fragment.toDatum) := rfl
  rw [Context.ofDatum?, RecordDialect.fields?]
  dsimp only [Option.bind_eq_bind, Option.bind_some]
  rw [field "fragments" (by decide) rfl items, Fragment.mapM_ofDatum? fragments, Option.bind_some,
    field "fragment_count" (by decide) rfl (Datum.word?_natCast fragmentCount),
    field "budget_tokens" (by decide) rfl (Datum.word?_natCast budgetTokens),
    field "tokens_used" (by decide) rfl (Datum.word?_natCast tokensUsed),
    field "stats" (by decide) rfl (ContextStats.ofDatum?_toDatum stats)]
  rfl

end Records

/-! ## What is written can be read -/

section Writing

open JsonText (IsWritable fitsWord fitsWord_natCast)

variable [RealText α] {depth : Nat}

theorem Fragment.isWritable_toDatum {fragment : Fragment α} (fits : fragment.tokens < wordModulus)
    (readsBack : RealText.ReadsBack fragment.score) :
    IsWritable (depth + 1) fragment.toDatum := by
  have count : fitsWord fragment.tokens = true := fitsWord_natCast fits
  rw [Fragment.toDatum, Fragment.fields]
  cases fragment.truncated with
  | false => simp [IsWritable, count, readsBack]
  | true => simp [IsWritable, count, readsBack]

theorem Datum.isWritable_ofText? (text : Option String) :
    IsWritable depth (Datum.ofText? text : Datum α) := by
  cases text with
  | none => simp [Datum.ofText?, IsWritable]
  | some text => simp [Datum.ofText?, IsWritable]

theorem ContextStats.isWritable_toDatum {stats : ContextStats}
    (fits : ∀ count ∈ stats.counts, count < wordModulus) :
    IsWritable (depth + 1) (stats.toDatum : Datum α) := by
  simp only [ContextStats.counts, List.forall_mem_cons] at fits
  simp [ContextStats.toDatum, ContextStats.fields, IsWritable, fitsWord_natCast, fits,
    Datum.isWritable_ofText?]

theorem Context.isWritable_stampedFields {context : Context α}
    (fits : ∀ count ∈ context.counts, count < wordModulus)
    (readsBack : ∀ fragment ∈ context.fragments, RealText.ReadsBack fragment.score)
    (timestamp : Option String) :
    IsWritable (depth + 3) (.record (context.stampedFields timestamp)) := by
  simp only [Context.counts, List.forall_mem_cons, List.forall_mem_append, List.forall_mem_map]
    at fits
  rcases fits with ⟨fragmentCount, budgetTokens, tokensUsed, fragments, stats⟩
  have items : ∀ fragment ∈ context.fragments, IsWritable (depth + 1) fragment.toDatum :=
    fun fragment member =>
      Fragment.isWritable_toDatum (fragments fragment member) (readsBack fragment member)
  have plain : ∀ field ∈ context.fields, IsWritable (depth + 2) field.2 := by
    simpa [Context.fields, IsWritable, fitsWord_natCast, fragmentCount, budgetTokens, tokensUsed,
      ContextStats.isWritable_toDatum stats] using items
  simp only [IsWritable]
  intro field member
  cases timestamp with
  | none => exact plain field member
  | some time =>
      rcases List.mem_append.mp member with before | after
      · exact plain field (List.mem_of_mem_take before)
      · rcases List.mem_cons.mp after with rfl | later
        · simp only [IsWritable]
        · exact plain field (List.mem_of_mem_drop later)

variable [Scalar α]

/-- A context is read as it was written if its scores are read as they are
spelled. -/
theorem Context.readJson?_of_readsBack {context : Context α}
    (fits : ∀ count ∈ context.counts, count < wordModulus)
    (readsBack : ∀ fragment ∈ context.fragments, RealText.ReadsBack fragment.score)
    (timestamp : Option String) :
    Context.readJson? (context.renderJson timestamp) = some context := by
  have writable : IsWritable JsonText.nestingLimit (.record (context.stampedFields timestamp)) :=
    Context.isWritable_stampedFields fits readsBack timestamp
  have lineEnd : JsonText.AreSpaces ['\n'] := JsonText.areSpaces_lineStart 0
  rw [Context.readJson?, Context.renderJson, String.toList_ofList,
    JsonText.read?_pretty writable lineEnd]
  exact Context.ofDatum?_stampedFields fits timestamp

end Writing

/-! ## Contexts with floating-point scores -/

/-- A context whose scores are finite is read from its JSON text as it was,
whatever its texts and counts are, if each score's own text reads back. -/
theorem Context.readJson?_renderJson (context : Context Float)
    (finite : ∀ fragment ∈ context.fragments, fragment.score.isFinite = true)
    (fits : ∀ count ∈ context.counts, count < wordModulus)
    (numbersReadBack : ∀ fragment ∈ context.fragments,
      JsonText.read? (RealText.write fragment.score) = some (.real fragment.score))
    (timestamp : Option String) :
    Context.readJson? (context.renderJson timestamp) = some context := by
  refine Context.readJson?_of_readsBack fits (fun fragment member => ?_) timestamp
  rcases Shortest.exists_spelling_of_isFinite (finite fragment member) with ⟨spelling, text⟩
  exact JsonText.readsBack_of_read? text (numbersReadBack fragment member)

/-- Two fragments, their texts with whatever has to be escaped. -/
def sampleContext : Context Float where
  fragments :=
    [{ id := "0123456789abcdef", path := "src/\"odd\" \\ name.py",
       content := "@@ -1 +1 @@\n-a\r\t\u0001\n+😀\n", kind := .seedHunks, score := 1.0, tokens := 23,
       truncated := true },
     { id := "fedcba9876543210", path := "src/漢字.rs", content := "", kind := .expansion,
       score := 0.03125, tokens := 7, truncated := false }]
  fragmentCount := 2
  budgetTokens := 500
  tokensUsed := 30
  stats := { seedCount := 1, filesScanned := 12, cochangeTruncated := some "commit_limit" }

theorem Context.readJson?_renderJson_of_sample :
    (∀ fragment ∈ sampleContext.fragments, fragment.score.isFinite = true) ∧
    (∀ count ∈ sampleContext.counts, count < wordModulus) ∧
    (∀ fragment ∈ sampleContext.fragments,
      JsonText.read? (RealText.write fragment.score) = some (.real fragment.score)) ∧
    Context.readJson? (sampleContext.renderJson (some "2024-05-01T12:00:00+00:00")) =
      some sampleContext := by
  have finite : ∀ fragment ∈ sampleContext.fragments, fragment.score.isFinite = true := by
    decide +kernel
  have fits : ∀ count ∈ sampleContext.counts, count < wordModulus := by decide
  have numbersReadBack : ∀ fragment ∈ sampleContext.fragments,
      JsonText.read? (RealText.write fragment.score) = some (.real fragment.score) := by
    intro fragment member
    rcases List.mem_pair.mp member with rfl | rfl
    · rfl
    · rfl
  exact ⟨finite, fits, numbersReadBack,
    Context.readJson?_renderJson sampleContext finite fits numbersReadBack _⟩

end ContextPack
