import ContextPack.Data.Overlay
import Mathlib.Data.List.Nodup

namespace ContextPack.Datum

/-!
# Overlaid records

A record put over another one changes the fields that it names and no others.  Of several
fields with one name the last one is found but the first one is replaced, so all of this is
about records that name a field once.
-/

variable {φ : Type} {name key : String} {value old : Datum φ}
  {below fields : List (String × Datum φ)}

/-- Every record inside names a field once. -/
inductive IsDistinct : Datum φ → Prop where
  | plain {value : Datum φ} (noRecord : value.fields? = none) : IsDistinct value
  | record {fields : List (String × Datum φ)} (names : (fields.map Prod.fst).Nodup)
      (inside : ∀ field ∈ fields, IsDistinct field.2) : IsDistinct (.record fields)

/-! ## Looking up -/

@[simp] theorem lookup_nil : lookup name ([] : List (String × Datum φ)) = none := rfl

@[simp] theorem lookup_eq_none_iff : lookup name fields = none ↔ name ∉ fields.map Prod.fst := by
  induction fields with
  | nil => simp
  | cons field fields inductionHypothesis =>
      rw [lookup, List.map_cons, List.mem_cons, not_or, ← inductionHypothesis]
      cases lookup name fields with
      | some later => simp
      | none => simp [eq_comm]

theorem mem_of_lookup_eq_some (found : lookup name fields = some value) :
    (name, value) ∈ fields := by
  induction fields with
  | nil => cases found
  | cons field fields inductionHypothesis =>
      rw [lookup] at found
      split at found
      · next isLater =>
          cases found
          exact List.mem_cons_of_mem _ (inductionHypothesis isLater)
      · split at found
        · next isOwn =>
            cases found
            exact isOwn ▸ List.mem_cons_self
        · cases found

theorem lookup_cons_of_ne (other : key ≠ name) (value : Datum φ) (fields : List (String × Datum φ)) :
    lookup name ((key, value) :: fields) = lookup name fields := by
  rw [lookup, if_neg other]
  cases lookup name fields <;> rfl

theorem lookup_cons_self (last : name ∉ fields.map Prod.fst) (value : Datum φ) :
    lookup name ((name, value) :: fields) = some value := by
  rw [lookup, lookup_eq_none_iff.mpr last]
  exact if_pos rfl

theorem IsDistinct.of_lookup (distinct : (Datum.record fields).IsDistinct)
    (found : lookup name fields = some value) : value.IsDistinct := by
  cases distinct with
  | plain noRecord => cases noRecord
  | record names inside => exact inside _ (mem_of_lookup_eq_some found)

theorem IsDistinct.names (distinct : (Datum.record fields).IsDistinct) :
    (fields.map Prod.fst).Nodup := by
  cases distinct with
  | plain noRecord => cases noRecord
  | record names inside => exact names

/-- A record with a value for each of some names. -/
def tabulate (names : List String) (value : String → Datum φ) : List (String × Datum φ) :=
  names.map fun name => (name, value name)

@[simp] theorem map_tabulate (names : List String) (value : String → Datum φ) :
    (tabulate names value).map Prod.fst = names := by
  rw [tabulate, List.map_map]
  exact List.map_id names

theorem lookup_tabulate {names : List String} (isIn : name ∈ names) (value : String → Datum φ) :
    lookup name (tabulate names value) = some (value name) := by
  induction names with
  | nil => cases isIn
  | cons first names inductionHypothesis =>
      rw [tabulate, List.map_cons]
      by_cases isLater : name ∈ names
      · rw [lookup]
        have later : lookup name (names.map fun name => (name, value name)) = _ :=
          inductionHypothesis isLater
        rw [later]
      · rcases List.mem_cons.mp isIn with rfl | later
        · exact lookup_cons_self (by rwa [← tabulate, map_tabulate]) _
        · exact absurd later isLater

/-! ## Setting a field -/

theorem mem_map_setField : key ∈ (setField name value fields).map Prod.fst ↔
    key = name ∨ key ∈ fields.map Prod.fst := by
  induction fields with
  | nil => simp [setField]
  | cons field fields inductionHypothesis =>
      rw [setField]
      split
      · next isOwn => simp [isOwn]
      · rw [List.map_cons, List.mem_cons, inductionHypothesis, List.map_cons, List.mem_cons]
        exact or_left_comm

theorem nodup_setField (distinct : (fields.map Prod.fst).Nodup) :
    ((setField name value fields).map Prod.fst).Nodup := by
  induction fields with
  | nil => simp [setField]
  | cons field fields inductionHypothesis =>
      rcases List.nodup_cons.mp distinct with ⟨notLater, distinct⟩
      rw [setField]
      split
      · next isOwn => exact List.nodup_cons.mpr ⟨isOwn ▸ notLater, distinct⟩
      · next other =>
          refine List.nodup_cons.mpr ⟨fun isLater => ?_, inductionHypothesis distinct⟩
          exact (mem_map_setField.mp isLater).elim other notLater

theorem lookup_setField_self (distinct : (fields.map Prod.fst).Nodup) :
    lookup name (setField name value fields) = some value := by
  induction fields with
  | nil => exact lookup_cons_self List.not_mem_nil value
  | cons field fields inductionHypothesis =>
      rcases List.nodup_cons.mp distinct with ⟨notLater, distinct⟩
      rw [setField]
      split
      · next isOwn => exact lookup_cons_self (isOwn ▸ notLater) value
      · next other => rw [lookup_cons_of_ne other, inductionHypothesis distinct]

theorem lookup_setField_of_ne (other : name ≠ key) :
    lookup key (setField name value fields) = lookup key fields := by
  induction fields with
  | nil => exact lookup_cons_of_ne other value []
  | cons field fields inductionHypothesis =>
      rw [setField]
      split
      · next isOwn =>
          rw [lookup_cons_of_ne other, lookup_cons_of_ne (isOwn ▸ other)]
      · rw [lookup, lookup, inductionHypothesis]

/-! ## One value over another -/

theorem overlay_record (below fields : List (String × Datum φ)) :
    (record below).overlay (.record fields) = .record (overlayFields below fields) := by
  rw [overlay]

/-- What is no record gives way as a whole. -/
theorem overlay_of_noRecord_below (noRecord : old.fields? = none) (value : Datum φ) :
    old.overlay value = value := by
  cases value with
  | record fields =>
      cases old with
      | record below => cases noRecord
      | _ => rw [overlay]; exact nofun
  | _ => rw [overlay]; exact nofun

/-- What is no record takes the place of anything. -/
theorem overlay_of_noRecord (noRecord : value.fields? = none) (old : Datum φ) :
    old.overlay value = value := by
  cases value with
  | record fields => cases noRecord
  | _ => rw [overlay]; exact nofun

/-- A field that is not named stays. -/
theorem lookup_overlayFields_of_none (absent : lookup name fields = none) :
    lookup name (overlayFields below fields) = lookup name below := by
  induction fields generalizing below with
  | nil => rw [overlayFields]
  | cons field fields inductionHypothesis =>
      rw [lookup_eq_none_iff, List.map_cons, List.mem_cons, not_or] at absent
      rw [overlayFields, inductionHypothesis (lookup_eq_none_iff.mpr absent.2),
        lookup_setField_of_ne (Ne.symm absent.1)]

/-- A field that is named is put over the one of that name, if there is one. -/
theorem lookup_overlayFields_of_some (distinct : (fields.map Prod.fst).Nodup)
    (distinctBelow : (below.map Prod.fst).Nodup) (found : lookup name fields = some value) :
    lookup name (overlayFields below fields) =
      some ((lookup name below).elim value fun old => old.overlay value) := by
  induction fields generalizing below with
  | nil => cases found
  | cons field fields inductionHypothesis =>
      rcases field with ⟨key, first⟩
      rcases List.nodup_cons.mp distinct with ⟨notLater, distinct⟩
      rw [overlayFields]
      by_cases isOwn : key = name
      · subst isOwn
        rw [lookup_cons_self notLater] at found
        cases found
        rw [lookup_overlayFields_of_none (lookup_eq_none_iff.mpr notLater),
          lookup_setField_self distinctBelow]
        cases lookup key below <;> rfl
      · rw [lookup_cons_of_ne isOwn] at found
        rw [inductionHypothesis distinct (nodup_setField distinctBelow) found,
          lookup_setField_of_ne isOwn]

/-- Over values that are no records the named fields take the place of the others. -/
theorem lookup_overlayFields_of_flat (distinct : (fields.map Prod.fst).Nodup)
    (distinctBelow : (below.map Prod.fst).Nodup) (flat : ∀ field ∈ below, field.2.fields? = none)
    (name : String) :
    lookup name (overlayFields below fields) = (lookup name fields).or (lookup name below) := by
  cases found : lookup name fields with
  | none => exact lookup_overlayFields_of_none found
  | some value =>
      rw [lookup_overlayFields_of_some distinct distinctBelow found]
      cases isOld : lookup name below with
      | none => rfl
      | some old =>
          have noRecord := flat _ (mem_of_lookup_eq_some isOld)
          exact congrArg some (overlay_of_noRecord_below noRecord value)

/-! ## Records that name a field once -/

theorem isDistinct_nil : (record ([] : List (String × Datum φ))).IsDistinct :=
  .record List.nodup_nil nofun

theorem IsDistinct.inside (distinct : (Datum.record fields).IsDistinct) :
    ∀ field ∈ fields, field.2.IsDistinct := by
  cases distinct with
  | plain noRecord => cases noRecord
  | record names inside => exact inside

theorem mem_setField {field : String × Datum φ} (isIn : field ∈ setField name value fields) :
    field = (name, value) ∨ field ∈ fields := by
  induction fields with
  | nil => exact Or.inl (List.mem_singleton.mp isIn)
  | cons first fields inductionHypothesis =>
      rw [setField] at isIn
      split at isIn
      · rcases List.mem_cons.mp isIn with isFirst | isLater
        · exact Or.inl isFirst
        · exact Or.inr (List.mem_cons_of_mem _ isLater)
      · rcases List.mem_cons.mp isIn with isFirst | isLater
        · exact Or.inr (isFirst ▸ List.mem_cons_self)
        · exact (inductionHypothesis isLater).imp_right (List.mem_cons_of_mem _)

theorem IsDistinct.setField (distinct : (Datum.record fields).IsDistinct)
    (isDistinct : value.IsDistinct) (name : String) :
    (Datum.record (Datum.setField name value fields)).IsDistinct := by
  refine .record (nodup_setField distinct.names) fun field isField => ?_
  rcases mem_setField isField with rfl | isOld
  · exact isDistinct
  · exact distinct.inside field isOld

mutual

theorem IsDistinct.overlay {lower : Datum φ} (distinct : lower.IsDistinct) :
    ∀ {upper : Datum φ}, upper.IsDistinct → (lower.overlay upper).IsDistinct
  | .record fields, isDistinct => by
      cases lower with
      | record below =>
          rw [overlay_record]
          exact isDistinct_overlayFields distinct isDistinct.inside
      | _ =>
          rw [overlay_of_noRecord_below rfl]
          exact isDistinct
  | .null, isDistinct | .boolean _, isDistinct | .integer _, isDistinct | .real _, isDistinct
  | .text _, isDistinct | .list _, isDistinct => by
      rw [overlay_of_noRecord rfl]
      exact isDistinct

theorem isDistinct_overlayFields {below : List (String × Datum φ)}
    (distinct : (record below).IsDistinct) : ∀ {fields : List (String × Datum φ)},
    (∀ field ∈ fields, field.2.IsDistinct) → (record (overlayFields below fields)).IsDistinct
  | [], _ => by
      rw [overlayFields]
      exact distinct
  | (name, value) :: rest, inside => by
      rcases List.forall_mem_cons.mp inside with ⟨isFirst, isLater⟩
      rw [overlayFields]
      refine isDistinct_overlayFields (distinct.setField ?_ name) isLater
      cases isOld : lookup name below with
      | none => exact isFirst
      | some old => exact IsDistinct.overlay (distinct.of_lookup isOld) isFirst

end

theorem isDistinct_nested (names : List String) (distinct : value.IsDistinct) :
    (nested names value).IsDistinct := by
  induction names with
  | nil => exact distinct
  | cons name names inductionHypothesis =>
      exact .record (List.nodup_singleton name) (List.forall_mem_singleton.mpr inductionHypothesis)

end ContextPack.Datum
