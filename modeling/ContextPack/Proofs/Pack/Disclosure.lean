import ContextPack.Proofs.Pack.FairShares
import ContextPack.Proofs.Pack.Selection

namespace ContextPack

/-!
# What seed fragments show

A fragment of a changed file shows the start of its draft, and what a draft is
made of is decided by the file alone: a line in the place of a file that is gone
or is no text, the patch if patches are wanted or the text is too large, and
otherwise the text.  Cutting only takes away, and says when it does.

That a line in place of a file gives nothing of the file away is said for whole
assemblies.  They stay the same if the texts and patches of such files are
withheld from the start.
-/

/-! ## Patches -/

/-- A hunk with a line end after its last line, which is added if there is none. -/
def IsTerminated (hunk : Hunk) (text : List Char) : Prop :=
  text.getLast? = some '\n' ∧
    (text = hunk.text.toList ∨
      hunk.text.toList.getLast? ≠ some '\n' ∧ text = hunk.text.toList ++ ['\n'])

/-- The hunks of a change one below the other, each of them terminated. -/
def IsPatch (change : FileChange) (patch : List Char) : Prop :=
  ∃ texts, List.Forall₂ IsTerminated change.hunks texts ∧ patch = texts.flatten

namespace FileChange

theorem isTerminated_closeLine (hunk : Hunk) : IsTerminated hunk (closeLine hunk.text.toList) := by
  rw [closeLine]
  split
  · next closed => exact ⟨closed, Or.inl rfl⟩
  · next unclosed => exact ⟨List.getLast?_concat, Or.inr ⟨unclosed, rfl⟩⟩

theorem isPatch_of_patchText? {change : FileChange} {patch : String}
    (found : change.patchText? = some patch) : IsPatch change patch.toList := by
  rw [patchText?] at found
  split at found
  · cases found
  · obtain rfl := Option.some.inj found
    refine ⟨change.hunks.map fun hunk => closeLine hunk.text.toList, ?_, ?_⟩
    · rw [List.forall₂_map_right_iff]
      exact List.forall₂_same.mpr fun hunk _member => isTerminated_closeLine hunk
    · rw [String.toList_ofList, List.flatMap_def]

theorem patchText?_ne_none {change : FileChange} (isText : change.binary = false)
    (changed : change.hunks ≠ []) : change.patchText? ≠ none := by
  rw [patchText?, isText, Bool.false_or, if_neg (by simpa using changed)]
  exact Option.some_ne_none _

end FileChange

/-! ## Drafts -/

namespace Draft

variable {maxFileSize : Nat} {wanted : SeedContent} {seed : Seed}

/-- A file whose text and patch could both be shown. -/
def IsShowable (seed : Seed) : Prop :=
  seed.change.status ≠ .deleted ∧ seed.change.binary = false

/-- What the draft of a changed file is made of, by what is known of the file. -/
inductive Shows (maxFileSize : Nat) (wanted : SeedContent) (seed : Seed) : Draft → Prop
  | deleted (gone : seed.change.status = .deleted) :
      Shows maxFileSize wanted seed (placeholder seed.path .deleted)
  | binary (present : seed.change.status ≠ .deleted) (noText : seed.change.binary = true) :
      Shows maxFileSize wanted seed (placeholder seed.path .binary)
  | patch (showable : IsShowable seed) (patch : String)
      (found : seed.change.patchText? = some patch)
      (asked : wanted = .hunks ∨ isOversized maxFileSize seed.content = true) :
      Shows maxFileSize wanted seed ⟨seed.path, patch.toList, .seedHunks, false⟩
  | oversized (showable : IsShowable seed) (unpatched : seed.change.patchText? = none)
      (exceeds : isOversized maxFileSize seed.content = true) :
      Shows maxFileSize wanted seed (placeholder seed.path .oversized)
  | text (showable : IsShowable seed) (unpatched : wanted ≠ .hunks ∨ seed.change.patchText? = none)
      (text : String) (readable : seed.content = some text)
      (fits : text.utf8ByteSize ≤ maxFileSize) :
      Shows maxFileSize wanted seed ⟨seed.path, text.toList, .seedFile, false⟩
  | unreadable (showable : IsShowable seed)
      (unpatched : wanted ≠ .hunks ∨ seed.change.patchText? = none) (unread : seed.content = none) :
      Shows maxFileSize wanted seed (placeholder seed.path .unreadable)

theorem shows_ofContent (showable : IsShowable seed)
    (unpatched : seed.change.patchText? = none ∨
      wanted ≠ .hunks ∧ isOversized maxFileSize seed.content = false) :
    Shows maxFileSize wanted seed
      (ofContent seed.change.path (isOversized maxFileSize seed.content) seed.content) := by
  cases exceeds : isOversized maxFileSize seed.content with
  | true =>
      rw [exceeds] at unpatched
      exact .oversized showable (unpatched.resolve_right (by simp)) exceeds
  | false =>
      have others : wanted ≠ .hunks ∨ seed.change.patchText? = none :=
        unpatched.symm.imp_left And.left
      cases content : seed.content with
      | none => exact .unreadable showable others content
      | some text =>
          rw [content, isOversized, decide_eq_false_iff_not, Nat.not_lt] at exceeds
          exact .text showable others text content exceeds

theorem shows_ofSeed (maxFileSize : Nat) (wanted : SeedContent) (seed : Seed) :
    Shows maxFileSize wanted seed (ofSeed maxFileSize wanted seed) := by
  rw [ofSeed]
  by_cases gone : seed.change.status = .deleted
  · rw [if_pos gone]
    exact .deleted gone
  · rw [if_neg gone]
    cases noText : seed.change.binary with
    | true => exact .binary gone noText
    | false =>
        have showable : IsShowable seed := ⟨gone, noText⟩
        rw [if_neg (by decide)]
        cases found : seed.change.patchText? with
        | none => exact shows_ofContent showable (Or.inl found)
        | some patch =>
            dsimp only
            split
            · next asked =>
                rw [Bool.or_eq_true, decide_eq_true_eq] at asked
                exact .patch showable patch found asked
            · next unasked =>
                rw [Bool.or_eq_true, decide_eq_true_eq, not_or, Bool.not_eq_true] at unasked
                exact shows_ofContent showable (Or.inr unasked)

/-- A draft is whole before the budget is looked at. -/
theorem Shows.truncated {draft : Draft} (isDraft : Shows maxFileSize wanted seed draft) :
    draft.truncated = false := by
  cases isDraft <;> rfl

namespace Shows

variable {draft : Draft}

theorem eq_of_deleted (isDraft : Shows maxFileSize wanted seed draft)
    (gone : seed.change.status = .deleted) : draft = placeholder seed.path .deleted := by
  cases isDraft with
  | deleted => rfl
  | binary present => exact absurd gone present
  | patch showable | oversized showable | text showable | unreadable showable =>
      exact absurd gone showable.1

theorem eq_of_binary (isDraft : Shows maxFileSize wanted seed draft)
    (present : seed.change.status ≠ .deleted) (noText : seed.change.binary = true) :
    draft = placeholder seed.path .binary := by
  cases isDraft with
  | deleted gone => exact absurd gone present
  | binary => rfl
  | patch showable | oversized showable | text showable | unreadable showable =>
      exact absurd noText (Bool.eq_false_iff.mp showable.2)

theorem exists_text (isDraft : Shows maxFileSize wanted seed draft) (kind : draft.kind = .seedFile) :
    ∃ text, seed.content = some text ∧ text.utf8ByteSize ≤ maxFileSize ∧
      draft.content = text.toList := by
  cases isDraft with
  | text _ _ text readable fits => exact ⟨text, readable, fits, rfl⟩
  | deleted | binary | patch | oversized | unreadable => cases kind

theorem exists_patch (isDraft : Shows maxFileSize wanted seed draft)
    (kind : draft.kind = .seedHunks) :
    ∃ patch, seed.change.patchText? = some patch ∧ draft.content = patch.toList := by
  cases isDraft with
  | patch _ patch found => exact ⟨patch, found, rfl⟩
  | deleted | binary | oversized | text | unreadable => cases kind

/-- A file with a patch is shown by its patch when patches are wanted. -/
theorem kind_of_hunks (isDraft : Shows maxFileSize .hunks seed draft)
    (showable : IsShowable seed) (changed : seed.change.hunks ≠ []) : draft.kind = .seedHunks := by
  have patched := FileChange.patchText?_ne_none showable.2 changed
  cases isDraft with
  | patch => rfl
  | deleted gone => exact absurd gone showable.1
  | binary _ noText => exact absurd noText (Bool.eq_false_iff.mp showable.2)
  | oversized _ unpatched => exact absurd unpatched patched
  | text _ unpatched | unreadable _ unpatched =>
      exact absurd (unpatched.resolve_left (not_not_intro rfl)) patched

end Shows

end Draft

/-! ## Files that are not shown -/

namespace Seed

/-- A changed file without what may not be shown of it. -/
def withhold (seed : Seed) : Seed :=
  if seed.change.status = .deleted ∨ seed.change.binary = true then
    ⟨{ seed.change with hunks := [] }, none⟩
  else seed

theorem withhold_path (seed : Seed) : seed.withhold.path = seed.path := by
  rw [withhold]
  split <;> rfl

end Seed

theorem Draft.ofSeed_withhold (maxFileSize : Nat) (wanted : SeedContent) (seed : Seed) :
    ofSeed maxFileSize wanted seed.withhold = ofSeed maxFileSize wanted seed := by
  rw [Seed.withhold]
  split
  · next hidden =>
      by_cases gone : seed.change.status = .deleted
      · rw [ofSeed, ofSeed, if_pos gone, if_pos gone]
      · have noText := hidden.resolve_left gone
        rw [ofSeed, ofSeed, if_neg gone, if_neg gone, if_pos noText, if_pos noText]
  · rfl

namespace Assembler

theorem dropSamePath_map {change : Seed → Seed} (keepsPath : ∀ seed, (change seed).path = seed.path)
    (seeds : List Seed) : dropSamePath (seeds.map change) = (dropSamePath seeds).map change := by
  have same (first second : Seed) : (change first).change.path = (change second).change.path ↔
      first.change.path = second.change.path := by
    have isFirst := keepsPath first
    have isSecond := keepsPath second
    rw [Seed.path, Seed.path] at isFirst isSecond
    rw [isFirst, isSecond]
  induction seeds using dropSamePath.induct with
  | case1 => rw [List.map_nil, dropSamePath, List.map_nil]
  | case2 seed => rw [List.map_singleton, dropSamePath, dropSamePath, List.map_singleton]
  | case3 first second rest samePath inductionHypothesis =>
      rw [List.map_cons, List.map_cons, dropSamePath, if_pos ((same first second).mpr samePath),
        dropSamePath, if_pos samePath, ← List.map_cons, inductionHypothesis]
  | case4 first second rest different inductionHypothesis =>
      rw [List.map_cons, List.map_cons, dropSamePath,
        if_neg fun samePath => different ((same first second).mp samePath), dropSamePath,
        if_neg different, List.map_cons, ← List.map_cons, inductionHypothesis]

theorem chosenSeeds_map (limits : Limits) {change : Seed → Seed}
    (keepsPath : ∀ seed, (change seed).path = seed.path) (seeds : List Seed) :
    chosenSeeds limits (seeds.map change) = (chosenSeeds limits seeds).map change := by
  have sorted : (seeds.map change).mergeSort (fun a b => Text.le a.change.path b.change.path) =
      (seeds.mergeSort fun a b => Text.le a.change.path b.change.path).map change := by
    refine (List.map_mergeSort fun first _ second _ => ?_).symm
    exact congrArg₂ Text.le (keepsPath first).symm (keepsPath second).symm
  rw [chosenSeeds, sorted, dropSamePath_map keepsPath, chosenSeeds, List.map_take]

variable {α : Type} [Scalar α] (assembler : Assembler α) (seeds : List Seed)
  (candidates : List (Candidate α)) (budget : Nat)

theorem assemble_withhold : assembler.assemble (seeds.map Seed.withhold) candidates budget =
    assembler.assemble seeds candidates budget := by
  have sameDrafts : (chosenSeeds assembler.limits (seeds.map Seed.withhold)).map
      (Draft.ofSeed assembler.limits.maxFileSize assembler.seedContent) =
      (chosenSeeds assembler.limits seeds).map
        (Draft.ofSeed assembler.limits.maxFileSize assembler.seedContent) := by
    rw [chosenSeeds_map _ Seed.withhold_path, List.map_map]
    exact List.map_congr_left fun seed _member => Draft.ofSeed_withhold _ _ seed
  rw [assemble, assemble, sameDrafts]

/-! ## Fragments -/

/-- The draft of a changed file, before the budget is looked at. -/
def draftOf (assembler : Assembler α) (seed : Seed) : Draft :=
  Draft.ofSeed assembler.limits.maxFileSize assembler.seedContent seed

/-- What a fragment may show of a changed file. -/
structure Discloses (seed : Seed) (fragment : Fragment α) : Prop where
  path : fragment.path = seed.path
  isSeed : fragment.kind.isSeed = true
  deleted : seed.change.status = .deleted → fragment.kind = .placeholder ∧
    fragment.content.toList <+: (placeholderLine seed.path .deleted).toList
  binary : seed.change.status ≠ .deleted → seed.change.binary = true →
    fragment.kind = .placeholder ∧
      fragment.content.toList <+: (placeholderLine seed.path .binary).toList
  text : fragment.kind = .seedFile → ∃ text, seed.content = some text ∧
    text.utf8ByteSize ≤ assembler.limits.maxFileSize ∧ fragment.content.toList <+: text.toList
  patch : fragment.kind = .seedHunks → ∃ patch, seed.change.patchText? = some patch ∧
    IsPatch seed.change patch.toList ∧ fragment.content.toList <+: patch.toList
  patched : assembler.seedContent = .hunks → Draft.IsShowable seed → seed.change.hunks ≠ [] →
    fragment.kind = .seedHunks
  truncated_iff : fragment.truncated = true ↔
    fragment.content.toList <+: (assembler.draftOf seed).content ∧
      fragment.content.toList ≠ (assembler.draftOf seed).content

omit [Scalar α] in
/-- A share of a draft shows nothing that the draft does not show. -/
theorem discloses_share {level : Nat} {seed : Seed} {share : Draft}
    (isShare : Fit.IsShare assembler.counter level (assembler.draftOf seed) share)
    (start : share.content <+: (assembler.draftOf seed).content) (score : α) :
    assembler.Discloses seed (assembler.fragment share score) := by
  have isDraft : Draft.Shows _ _ seed (assembler.draftOf seed) := Draft.shows_ofSeed _ _ seed
  have ofSeed : (assembler.draftOf seed).path = seed.path ∧
      (assembler.draftOf seed).kind.isSeed = true := Draft.ofSeed_spec _ _ seed
  constructor
  case path => exact isShare.path.trans ofSeed.1
  case isSeed =>
    rw [fragment_kind, isShare.kind]
    exact ofSeed.2
  case deleted =>
    intro gone
    rw [fragment_kind, fragment_content, isShare.kind]
    rw [isDraft.eq_of_deleted gone] at start ⊢
    exact ⟨rfl, start⟩
  case binary =>
    intro present noText
    rw [fragment_kind, fragment_content, isShare.kind]
    rw [isDraft.eq_of_binary present noText] at start ⊢
    exact ⟨rfl, start⟩
  case text =>
    rw [fragment_kind, fragment_content, isShare.kind]
    intro kind
    rcases isDraft.exists_text kind with ⟨text, readable, fits, content⟩
    exact ⟨text, readable, fits, content ▸ start⟩
  case patch =>
    rw [fragment_kind, fragment_content, isShare.kind]
    intro kind
    rcases isDraft.exists_patch kind with ⟨patch, found, content⟩
    exact ⟨patch, found, FileChange.isPatch_of_patchText? found, content ▸ start⟩
  case patched =>
    intro wanted showable changed
    rw [fragment_kind, isShare.kind]
    rw [wanted] at isDraft
    exact isDraft.kind_of_hunks showable changed
  case truncated_iff =>
    rw [fragment_content, and_iff_right start]
    refine isShare.truncated_iff.trans ?_
    rw [isDraft.truncated]
    exact or_iff_right Bool.false_ne_true

theorem seedFragments_disclose : List.Forall₂ assembler.Discloses (shownSeeds assembler.limits seeds)
    (assembler.seedFragments seeds budget) := by
  rw [seedFragments_eq, drafts_eq_shownDrafts, shownDrafts, List.map_map, List.map_map,
    List.forall₂_map_right_iff]
  refine List.forall₂_same.mpr fun seed _member => ?_
  refine discloses_share assembler (Fit.isShare_cut assembler.counter _ _) ?_ _
  rw [Fit.cut_content]
  exact Tokens.truncate_isPrefix _ _ _

theorem kind_of_mem_expansions (fragment : Fragment α)
    (member : fragment ∈ assembler.expansions seeds candidates budget) :
    fragment.kind = .expansion := by
  rcases exists_expansions_eq assembler seeds candidates budget with ⟨chosen, -, packed⟩
  rw [packed] at member
  rcases List.mem_map.mp member with ⟨ranked, -, rfl⟩
  rfl

/-- The fragments that stand for changed files are those of the shown seeds, and
each shows of its file only what it may.  What may not be shown is of no account
for the whole assembly. -/
theorem seed_fragments_disclose_drafts :
    (∃ ofSeeds others,
      (assembler.assemble seeds candidates budget).fragments = ofSeeds ++ others ∧
      List.Forall₂ assembler.Discloses (shownSeeds assembler.limits seeds) ofSeeds ∧
      ∀ fragment ∈ others, fragment.kind = .expansion) ∧
    assembler.assemble (seeds.map Seed.withhold) candidates budget =
      assembler.assemble seeds candidates budget :=
  ⟨⟨_, _, assemble_fragments assembler seeds candidates budget,
      assembler.seedFragments_disclose seeds budget,
      assembler.kind_of_mem_expansions seeds candidates budget⟩,
    assembler.assemble_withhold seeds candidates budget⟩

end Assembler
end ContextPack
