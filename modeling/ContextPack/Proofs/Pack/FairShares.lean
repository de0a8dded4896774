import ContextPack.Proofs.Pack.Seeds

namespace ContextPack

/-!
# Seeds share a budget fairly

What the budget leaves after overhead is filled up to one level.  Who needs no
more than that keeps everything, all others are cut at the same level, and the
level could not be higher by one.

Who keeps everything is decided by the price of a whole text, who loses
something by what truncation does to it.  That both are the same needs nothing
of the counter but that the empty text, from which nothing can be cut, is free.
-/

namespace Fit

/-- The highest level whose fill is covered. -/
structure IsFairLevel (costs : List Nat) (available level : Nat) : Prop where
  covered : filled level costs ≤ available
  highest : available < filled (level + 1) costs

/-- What is left of a draft where a level is shared.  Only of an empty text that
a counter charges for could one not tell whether all of it has been kept. -/
structure IsShare (counter : TokenCounter) (level : Nat) (draft share : Draft) : Prop where
  path : share.path = draft.path
  kind : share.kind = draft.kind
  whole : counter draft.content ≤ level → share = draft
  cut : level < counter draft.content →
    share.content = Tokens.truncate counter level draft.content
  whole_iff : draft.content ≠ [] ∨ counter [] = 0 →
    (share.content = draft.content ↔ counter draft.content ≤ level)
  truncated_iff : share.truncated = true ↔
    draft.truncated = true ∨ share.content ≠ draft.content

theorem isShare_cut (counter : TokenCounter) (level : Nat) (draft : Draft) :
    IsShare counter level draft (cut counter level draft) where
  path := cut_path counter level draft
  kind := cut_kind counter level draft
  whole := cut_of_le counter
  cut _ := cut_content counter level draft
  whole_iff apart := by
    rw [cut_content]
    refine ⟨fun same => ?_, Tokens.truncate_of_le⟩
    by_contra exceeds
    have above : level < counter draft.content := Nat.lt_of_not_le exceeds
    have nonempty : draft.content ≠ [] := by
      intro isEmpty
      rcases apart with nonempty | free
      · exact nonempty isEmpty
      · rw [isEmpty, free] at above
        exact Nat.not_lt_zero level above
    exact Tokens.truncate_ne_self above nonempty same
  truncated_iff := by
    rw [Fit.cut]
    split
    · next shorter =>
        exact iff_of_true rfl (Or.inr fun same => Nat.ne_of_lt shorter (congrArg List.length same))
    · exact (or_iff_left (not_not_intro rfl)).symm

/-- Drafts that fit stay as they are.  If they do not, and cost more than the
overhead leaves, they share what is left: there is one level at which all of
them are cut, and it is the highest one that is covered.  Counts are kept in
range in whatever way, exact sums among them. -/
theorem seeds_share_fairly (wrap : Wrap) (counter : TokenCounter) (overhead : Nat)
    (drafts : List Draft) (budget : Nat) :
    let costs := drafts.map fun draft => counter draft.content
    let overheadTotal := wrap (drafts.length * overhead)
    let needed := wrap (Context.addUp wrap costs + overheadTotal)
    let available := budget - overheadTotal
    let fitted := fit wrap counter overhead drafts budget
    (needed ≤ budget → fitted.drafts = drafts ∧ fitted.shrunk = false) ∧
    (budget < needed → available < costs.sum →
      fitted.shrunk = true ∧ ∃ level, IsFairLevel costs available level ∧
        List.Forall₂ (IsShare counter level) drafts fitted.drafts) := by
  intro costs overheadTotal needed available fitted
  constructor
  · intro fits
    have unchanged : fitted = ⟨drafts, false, false⟩ := if_pos fits
    rw [unchanged]
    exact ⟨rfl, rfl⟩
  · intro exceeds scarce
    have shrunk := fit_of_lt counter wrap overhead drafts budget exceeds
    rcases level_cases costs available with ⟨covered, -⟩ | ⟨-, -, covered, highest⟩
    · exact absurd scarce (Nat.not_lt_of_le covered)
    · have shared : fitted.drafts = drafts.map (cut counter (level costs available)) :=
        congrArg Fitted.drafts shrunk
      refine ⟨congrArg Fitted.shrunk shrunk, level costs available, ⟨covered, highest⟩, ?_⟩
      rw [shared, List.forall₂_map_right_iff]
      exact List.forall₂_same.mpr fun draft _member => isShare_cut counter _ draft

/-- A short text and two longer ones. -/
def sampleDrafts : List Draft :=
  [⟨"a.py", "import b\nimport c\n".toList, .seedFile, false⟩,
   ⟨"b.py", "x\n".toList, .seedFile, false⟩,
   ⟨"c.py", "y = 1\nz = 2\n".toList, .seedHunks, false⟩]

/-- At an overhead of 3 each, 38 pays for all.  Of 21 there are 12 left, of which
the short text takes 2 and the others 5 each. -/
theorem seeds_share_fairly_of_sample :
    (fit id Tokens.byteCount 3 sampleDrafts 41).drafts = sampleDrafts ∧
      List.Forall₂ (IsShare Tokens.byteCount 5) sampleDrafts
        (fit id Tokens.byteCount 3 sampleDrafts 21).drafts := by
  have enough := (seeds_share_fairly id Tokens.byteCount 3 sampleDrafts 41).1 (by decide)
  have scarce := (seeds_share_fairly id Tokens.byteCount 3 sampleDrafts 21).2 (by decide) (by decide)
  rcases scarce with ⟨-, level, ⟨covered, highest⟩, shares⟩
  refine ⟨enough.1, ?_⟩
  have isFive : level = 5 := by
    have costs : sampleDrafts.map (fun draft => Tokens.byteCount draft.content) = [18, 2, 12] := by
      decide
    rw [costs] at covered highest
    simp only [filled_cons, filled_nil, sampleDrafts, List.length_cons, List.length_nil, id_eq]
      at covered highest
    omega
  rwa [isFive] at shares

end Fit
end ContextPack
