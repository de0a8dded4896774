import ContextPack.Proofs.Text.Case
import ContextPack.Settings.Record
import Mathlib

namespace ContextPack

/-!
# Values of settings

What a key of the settings takes depends on its kind.  Whatever it takes is written in a form
in which the key takes it again, and written again it is the same.  For lists of texts this
rests on their items: they are trimmed and empty ones dropped, extensions are spelled in small
letters with a dot in front, and neither small letters nor a dot are blanks.
-/

namespace Text

/-! ## Trimmed texts -/

/-- Neither end of a text is blank. -/
structure IsTrimmed (text : List Char) : Prop where
  head : ∀ c ∈ text.head?, isBlank c = false
  last : ∀ c ∈ text.getLast?, isBlank c = false

theorem not_blank_of_head?_dropWhile {text : List Char} {c : Char}
    (isHead : (text.dropWhile isBlank).head? = some c) : isBlank c = false := by
  have first := List.head?_dropWhile_not isBlank text
  rwa [isHead] at first

theorem dropWhile_isBlank_eq {text : List Char} (first : ∀ c ∈ text.head?, isBlank c = false) :
    text.dropWhile isBlank = text := by
  cases text with
  | nil => rfl
  | cons c rest => exact List.dropWhile_cons_of_neg (by simp [first c rfl])

theorem isTrimmed_trimChars (text : List Char) : IsTrimmed (trimChars text) := by
  constructor
  · intro c isHead
    have front : trimChars text <+: text.dropWhile isBlank := List.rdropWhile_prefix isBlank _
    rcases front with ⟨rest, parts⟩
    have isFirst : (text.dropWhile isBlank).head? = some c := by
      rw [← parts, List.head?_append, Option.mem_def.mp isHead]
      rfl
    exact not_blank_of_head?_dropWhile isFirst
  · intro c isLast
    rw [trimChars, dropEndWhile, List.getLast?_reverse] at isLast
    exact not_blank_of_head?_dropWhile isLast

theorem IsTrimmed.trimChars_eq {text : List Char} (isTrimmed : IsTrimmed text) :
    trimChars text = text := by
  have last : ∀ c ∈ text.reverse.head?, isBlank c = false := by
    rw [List.head?_reverse]
    exact isTrimmed.last
  rw [trimChars, dropWhile_isBlank_eq isTrimmed.head, dropEndWhile, dropWhile_isBlank_eq last,
    List.reverse_reverse]

theorem isBlank_of_isAlpha {c : Char} (letter : c.isAlpha = true) : isBlank c = false := by
  have range : 65 ≤ c.toNat ∧ c.toNat ≤ 90 ∨ 97 ≤ c.toNat ∧ c.toNat ≤ 122 := by
    simpa [Char.isAlpha, Char.isUpper, Char.isLower, UInt32.le_iff_toNat_le] using letter
  simp only [isBlank, Bool.or_eq_false_iff, Bool.and_eq_false_iff, decide_eq_false_iff_not,
    beq_eq_false_iff_ne]
  omega

theorem isBlank_toLower (c : Char) : isBlank c.toLower = isBlank c := by
  by_cases letter : c.isAlpha = true
  · rw [isBlank_of_isAlpha letter, isBlank_of_isAlpha (by rwa [Char.isAlpha_toLower_eq_isAlpha])]
  · rw [toLower_of_not_isAlpha letter]

theorem IsTrimmed.lowerAscii {text : List Char} (isTrimmed : IsTrimmed text) :
    IsTrimmed (lowerAscii text) := by
  constructor
  · intro c isHead
    rw [Text.lowerAscii, List.head?_map, Option.mem_def, Option.map_eq_some_iff] at isHead
    rcases isHead with ⟨d, isFirst, rfl⟩
    rw [isBlank_toLower, isTrimmed.head d isFirst]
  · intro c isLast
    rw [Text.lowerAscii, List.getLast?_map, Option.mem_def, Option.map_eq_some_iff] at isLast
    rcases isLast with ⟨d, isFirst, rfl⟩
    rw [isBlank_toLower, isTrimmed.last d isFirst]

theorem IsTrimmed.dot {text : List Char} (isTrimmed : IsTrimmed text) :
    IsTrimmed ('.' :: text) := by
  have noBlank : isBlank '.' = false := by decide
  constructor
  · rintro c ⟨⟩
    exact noBlank
  · intro c isLast
    cases text with
    | nil =>
        cases isLast
        exact noBlank
    | cons d rest => exact isTrimmed.last c (by rwa [List.getLast?_cons_cons] at isLast)

end Text

/-! ## Items -/

/-- An item that is left as it is: trimmed and not empty. -/
structure IsItem (item : String) : Prop where
  isTrimmed : Text.IsTrimmed item.toList
  nonempty : item ≠ ""

theorem isItem_of_mem_normalizeItems {items : List String} {item : String}
    (isIn : item ∈ normalizeItems items) : IsItem item := by
  rcases List.mem_filter.mp isIn with ⟨isMapped, some⟩
  rcases List.mem_map.mp isMapped with ⟨given, -, rfl⟩
  refine ⟨?_, bne_iff_ne.mp some⟩
  rw [Text.trim, String.toList_ofList]
  exact Text.isTrimmed_trimChars _

theorem normalizeItems_eq {items : List String} (normal : ∀ item ∈ items, IsItem item) :
    normalizeItems items = items := by
  have same : items.map Text.trim = items := by
    conv_rhs => rw [← List.map_id items]
    refine List.map_congr_left fun item isIn => ?_
    rw [Text.trim, (normal item isIn).isTrimmed.trimChars_eq, String.ofList_toList, id]
  rw [normalizeItems, same, List.filter_eq_self]
  exact fun item isIn => bne_iff_ne.mpr (normal item isIn).nonempty

theorem normalizeItems_normalizeItems (items : List String) :
    normalizeItems (normalizeItems items) = normalizeItems items :=
  normalizeItems_eq fun _ => isItem_of_mem_normalizeItems

/-! ## Extensions -/

/-- An extension that is left as it is: small letters with a dot in front. -/
structure IsExtension (item : String) : Prop where
  isItem : IsItem item
  small : Text.lowerAscii item.toList = item.toList
  dot : ['.'] <+: item.toList

theorem isExtension_ofList {rest : List Char} (small : Text.lowerAscii rest = rest)
    (isTrimmed : Text.IsTrimmed ('.' :: rest)) : IsExtension (String.ofList ('.' :: rest)) where
  isItem := ⟨by rwa [String.toList_ofList], by simp⟩
  small := by
    rw [String.toList_ofList]
    exact congrArg ('.' :: ·) small
  dot := by
    rw [String.toList_ofList]
    exact List.prefix_append ['.'] rest

theorem IsItem.isExtension {item : String} (isItem : IsItem item) :
    IsExtension (normalizeExtension item) := by
  have isTrimmed := isItem.isTrimmed.lowerAscii
  have small := Text.lowerAscii_lowerAscii item.toList
  rw [normalizeExtension]
  split
  · next rest spelled =>
      rw [spelled] at isTrimmed small ⊢
      exact isExtension_ofList (List.cons_eq_cons.mp small).2 isTrimmed
  · exact isExtension_ofList small isTrimmed.dot

theorem IsExtension.normalizeExtension_eq {item : String} (isExtension : IsExtension item) :
    normalizeExtension item = item := by
  rcases isExtension.dot with ⟨rest, spelled⟩
  rw [List.singleton_append] at spelled
  rw [normalizeExtension, isExtension.small, ← spelled]
  exact (congrArg String.ofList spelled).trans String.ofList_toList

/-- Extensions that have been normalized are left as they are. -/
theorem normalizeExtensions_normalizeExtensions (items : List String) :
    (normalizeItems ((normalizeItems items).map normalizeExtension)).map normalizeExtension =
      (normalizeItems items).map normalizeExtension := by
  have normal : ∀ item ∈ (normalizeItems items).map normalizeExtension, IsExtension item := by
    intro item isIn
    rcases List.mem_map.mp isIn with ⟨given, isItem, rfl⟩
    exact (isItem_of_mem_normalizeItems isItem).isExtension
  rw [normalizeItems_eq fun item isIn => (normal item isIn).isItem]
  conv_rhs => rw [← List.map_id ((normalizeItems items).map normalizeExtension)]
  exact List.map_congr_left fun item isIn => (normal item isIn).normalizeExtension_eq

/-! ## Values that are written -/

variable {α : Type}

namespace Datum

@[simp] theorem texts?_textsDatum (items : List String) :
    (textsDatum items : Datum α).texts? = some items := by
  change (items.map (text (φ := α))).mapM text? = some items
  induction items with
  | nil => rfl
  | cons item items inductionHypothesis =>
      rw [List.map_cons, List.mapM_cons, inductionHypothesis]
      rfl

/-- A list of texts is read as it was written, but for what is normalized. -/
@[simp] theorem textItems?_textsDatum (items : List String) :
    (textsDatum items : Datum α).textItems? = some (normalizeItems items) :=
  congrArg (Option.map normalizeItems) (texts?_textsDatum items)

@[simp] theorem extensionItems?_textsDatum (items : List String) :
    (textsDatum items : Datum α).extensionItems? =
      some ((normalizeItems items).map normalizeExtension) :=
  congrArg (Option.map (List.map normalizeExtension)) (textItems?_textsDatum items)

variable {value : Datum α} {items : List String}

/-- Whether a text or a list was read, its items are normal. -/
theorem normalizeItems_of_textItems? (reads : value.textItems? = some items) :
    normalizeItems items = items := by
  rw [textItems?.eq_def] at reads
  split at reads
  · cases reads
    exact normalizeItems_normalizeItems _
  · rcases Option.map_eq_some_iff.mp reads with ⟨given, -, rfl⟩
    exact normalizeItems_normalizeItems given

theorem normalizeItems_of_extensionItems? (reads : value.extensionItems? = some items) :
    (normalizeItems items).map normalizeExtension = items := by
  rcases Option.map_eq_some_iff.mp reads with ⟨given, isGiven, rfl⟩
  rw [← normalizeItems_of_textItems? isGiven]
  exact normalizeExtensions_normalizeExtensions given

theorem word?_naturalDatum {n : Nat} (fits : n ≤ naturalLimit) :
    (naturalDatum n : Datum α).word? = some n :=
  if_pos fits

theorem le_naturalLimit_of_word? {n : Nat} (reads : value.word? = some n) : n ≤ naturalLimit := by
  rw [word?] at reads
  split at reads
  · split at reads
    · next fits =>
        cases reads
        exact fits
    · cases reads
  · cases reads

end Datum

/-! ## Kinds -/

variable [Scalar α]

inductive KeyKind where
  | natural
  | real
  | texts
  | extensions
  | truth
  | fusion
  | seedContent
deriving DecidableEq

namespace KeyKind

/-- A value as a key of this kind takes it and as it is written again. -/
def normal? : KeyKind → Datum α → Option (Datum α)
  | natural, value => value.word?.map naturalDatum
  | real, value => value.real?.map .real
  | texts, value => value.textItems?.map textsDatum
  | extensions, value => value.extensionItems?.map textsDatum
  | truth, value => value.boolean?.map .boolean
  | fusion, value => (Fusion.ofDatum? value).map fun fusion => .record fusion.fields
  | seedContent, value => (SeedContent.ofDatum? value).map SeedContent.toDatum

variable {kind : KeyKind} {value written : Datum α}

/-- What a key took is taken as it is. -/
theorem normal?_of_normal? (reads : kind.normal? value = some written) :
    kind.normal? written = some written := by
  cases kind with
  | natural =>
      rcases Option.map_eq_some_iff.mp reads with ⟨n, isWord, rfl⟩
      rw [normal?, Datum.word?_naturalDatum (Datum.le_naturalLimit_of_word? isWord),
        Option.map_some]
  | real =>
      rcases Option.map_eq_some_iff.mp reads with ⟨x, -, rfl⟩
      rfl
  | texts =>
      rcases Option.map_eq_some_iff.mp reads with ⟨items, isItems, rfl⟩
      rw [normal?, Datum.textItems?_textsDatum, Option.map_some,
        Datum.normalizeItems_of_textItems? isItems]
  | extensions =>
      rcases Option.map_eq_some_iff.mp reads with ⟨items, isItems, rfl⟩
      rw [normal?, Datum.extensionItems?_textsDatum, Option.map_some,
        Datum.normalizeItems_of_extensionItems? isItems]
  | truth =>
      rcases Option.map_eq_some_iff.mp reads with ⟨x, -, rfl⟩
      rfl
  | fusion =>
      rcases Option.map_eq_some_iff.mp reads with ⟨fusion, -, rfl⟩
      cases fusion <;> rfl
  | seedContent =>
      rcases Option.map_eq_some_iff.mp reads with ⟨content, -, rfl⟩
      cases content <;> rfl

end KeyKind

end ContextPack
