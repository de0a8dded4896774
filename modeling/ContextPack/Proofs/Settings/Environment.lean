import ContextPack.Proofs.Settings.Overriding
import ContextPack.Proofs.Text.Pieces

namespace ContextPack

/-!
# Overrides from the environment

However the values of variables are spelled, the records in them name a field once, and so do
the records that come about when variables are put over one another.  So what is loaded follows
from the file's settings and from what the variables set.
-/

namespace Environment

open Datum (IsDistinct)

variable {φ : Type}

theorem isDistinct_fieldBefore {value : Datum φ} {fields : List (String × Datum φ)} (name : String)
    (distinct : value.IsDistinct) (distinctFields : (Datum.record fields).IsDistinct) :
    (Datum.record (fieldBefore name value fields)).IsDistinct := by
  rw [fieldBefore]
  split
  · exact distinctFields
  · next isLast =>
      have notLater : name ∉ fields.map Prod.fst := by simpa using isLast
      refine .record (List.nodup_cons.mpr ⟨notLater, distinctFields.names⟩) ?_
      exact List.forall_mem_cons.mpr ⟨distinct, distinctFields.inside⟩

variable [RealLiteral φ]

theorem isDistinct_bareValue (text : List Char) : (bareValue text : Datum φ).IsDistinct := by
  rw [bareValue]
  split
  · exact .plain rfl
  · split <;> exact .plain rfl

/-- Whatever is read names a field once, in the records that stand in it too. -/
theorem isDistinct_read (fuel : Nat) :
    (∀ text (value : Datum φ) rest, value? fuel text = some (value, rest) → value.IsDistinct) ∧
      ∀ text (read : List (String × Datum φ)) rest, fields fuel text = some (read, rest) →
        (Datum.record read).IsDistinct := by
  induction fuel with
  | zero => exact ⟨nofun, nofun⟩
  | succ fuel inductionHypothesis =>
      rcases inductionHypothesis with ⟨ofValue, ofFields⟩
      refine ⟨fun text value rest reads => ?_, fun text read rest reads => ?_⟩
      · rw [value?] at reads
        rcases Option.map_eq_some_iff.mp reads with ⟨⟨found, after⟩, isFound, same⟩
        cases same
        split at isFound
        · cases isFound
          exact .plain rfl
        · cases isFound
          exact .plain rfl
        · rcases Option.map_eq_some_iff.mp isFound with ⟨⟨read, behind⟩, isRead, same⟩
          cases same
          exact ofFields _ _ _ isRead
        · rcases Option.map_eq_some_iff.mp isFound with ⟨read, -, same⟩
          cases same
          exact .plain rfl
        · rcases Option.map_eq_some_iff.mp isFound with ⟨read, -, same⟩
          cases same
          exact .plain rfl
        · cases isFound
          exact .plain rfl
        · cases isFound
        · cases isFound
          exact isDistinct_bareValue _
      · rw [fields.eq_def] at reads
        split at reads
        · cases reads
        · cases reads
          exact Datum.isDistinct_nil
        · next isFuel _ =>
            cases isFuel
            split at reads
            · cases reads
            · split at reads
              · split at reads
                · next isValue =>
                    rcases Option.map_eq_some_iff.mp reads with ⟨⟨more, behind⟩, isMore, same⟩
                    cases same
                    exact isDistinct_fieldBefore _ (ofValue _ _ _ isValue) (ofFields _ _ _ isMore)
                · next isValue =>
                    cases reads
                    refine .record (List.nodup_singleton _) (List.forall_mem_singleton.mpr ?_)
                    exact ofValue _ _ _ isValue
                · cases reads
              · cases reads

theorem isDistinct_valueOf (text : String) : (valueOf text : Datum φ).IsDistinct := by
  rw [valueOf]
  split
  · next value reads => exact (isDistinct_read _).1 _ _ _ reads
  · exact .plain rfl

/-- What the variables set is a record in which everything is named once. -/
theorem isDistinct_settingsOf (entries : List (String × String)) :
    (settingsOf entries : Datum φ).IsDistinct := by
  rw [settingsOf]
  refine List.foldlRecOn entries _ Datum.isDistinct_nil fun gathered distinct entry _ => ?_
  split
  · exact distinct.overlay (Datum.isDistinct_nested _ (isDistinct_valueOf _))
  · exact distinct

/-- A name that sets something leads through a key. -/
theorem ne_nil_of_keys? {name : String} {keys : List String} (isSetting : keys? name = some keys) :
    keys ≠ [] := by
  rw [keys?] at isSetting
  split at isSetting
  · cases isSetting
  · dsimp only at isSetting
    split_ifs at isSetting
    cases isSetting
    exact mt List.map_eq_nil_iff.mp (Text.pieces_ne_nil _ _)

theorem exists_settingsOf_eq (entries : List (String × String)) :
    ∃ upper, (settingsOf entries : Datum φ) = .record upper := by
  rw [settingsOf]
  refine List.foldlRecOn (motive := fun gathered : Datum φ => ∃ upper, gathered = .record upper)
    entries _ ⟨[], rfl⟩ fun gathered isRecord entry _ => ?_
  rcases isRecord with ⟨fields, rfl⟩
  split
  · next isSetting =>
      rcases List.exists_cons_of_ne_nil (ne_nil_of_keys? isSetting) with ⟨key, keys, rfl⟩
      exact ⟨_, Datum.overlay_record fields _⟩
  · exact ⟨fields, rfl⟩

end Environment

namespace Settings

variable {α : Type} [Scalar α] [RealLiteral α] {base : Settings α}

/-- Settings of a text were read from a record that stands in it. -/
theorem exists_of_ofText {path : String} {text : List Char} (reads : ofText path text = .ok base) :
    ∃ dialect lower, ofDatum? dialect lower = some base := by
  rw [ofText] at reads
  grind

theorem exists_of_ofFile {file : SettingsFile} (reads : ofFile file = .ok base) :
    ∃ dialect lower, ofDatum? dialect lower = some base := by
  rw [ofFile] at reads
  split at reads
  · cases reads
  · exact exists_of_ofText reads

/-- The settings that the environment is put over were read, be it from nothing. -/
theorem exists_of_fromFiles {named found : Option SettingsFile}
    (reads : fromFiles named found = .ok base) :
    ∃ dialect lower, ofDatum? dialect lower = some base := by
  have default : ∃ dialect lower, ofDatum? dialect lower = some (.default : Settings α) :=
    ⟨.environment, .record [], rfl⟩
  rw [fromFiles.eq_def] at reads
  split at reads
  · next file =>
      cases isRead : (ofFile file : Except SettingsFileProblem (Settings α)) with
      | error problem =>
          rw [isRead] at reads
          cases reads
      | ok settings =>
          rw [isRead] at reads
          cases reads
          exact exists_of_ofFile isRead
  · split at reads
    · next isRead =>
        cases reads
        exact exists_of_ofFile isRead
    · cases reads
      exact default
  · cases reads
    exact default

/-- What is loaded follows from the file's settings and what the variables set, if that is
accepted and no rule is broken. -/
theorem load_follows {named found : Option SettingsFile} {entries : List (String × String)}
    {base : Settings Float} (isBase : fromFiles named found = .ok base)
    (accepts : ∀ upper, Environment.settingsOf entries = .record upper → base.Accepts upper) :
    ∃ upper settings, Environment.settingsOf entries = .record upper ∧
      base.Follows settings upper ∧ load named found entries =
        (settings.check.mapError LoadProblem.refused).map fun _ => settings := by
  rcases exists_of_fromFiles isBase with ⟨dialect, lower, isRead⟩
  obtain ⟨upper, isUpper⟩ : ∃ upper, (Environment.settingsOf entries : Datum Float) = .record upper :=
    Environment.exists_settingsOf_eq entries
  have distinct := isUpper ▸ Environment.isDistinct_settingsOf entries
  rcases override_follows isRead distinct (accepts upper isUpper) with
    ⟨settings, isSettings, follows⟩
  refine ⟨upper, settings, isUpper, follows, ?_⟩
  rw [load, isBase, isUpper]
  dsimp only [bind, Except.bind]
  rw [isSettings]
  rfl

end Settings

end ContextPack
