import ContextPack.Proofs.Number.Exact
import ContextPack.Proofs.Settings.Keys
import ContextPack.Settings.Load

namespace ContextPack

/-!
# Overrides change what they name

Settings are written, the override is put over them, and all is read again.  Reading goes
field by field, so a field that the override leaves alone is read as it was written, and what
was read before is read as it is.  This is said once for the fields of any record and then
used for the sections, for the keys of a section and for the parts of a fusion.
-/

open Datum (tabulate lookup overlayFields)

variable {α : Type} [Scalar α]

/-! ## Fields -/

section Fields

variable {fields : List (Field α)} {given written : List (String × Datum α)}

omit [Scalar α]

/-- What is read has a value for every field. -/
theorem exists_of_readFields (distinct : (fields.map Field.name).Nodup)
    (reads : readFields fields given = some written) :
    ∃ value, written = tabulate (fields.map Field.name) value ∧ ∀ field ∈ fields,
      fieldOr given field.name field.read field.default = some (value field.name) := by
  induction fields generalizing written with
  | nil =>
      cases reads
      exact ⟨fun _ => .null, rfl, nofun⟩
  | cons field fields inductionHypothesis =>
      rcases List.nodup_cons.mp distinct with ⟨notLater, distinct⟩
      rw [readFields_cons, Option.bind_eq_some_iff] at reads
      rcases reads with ⟨first, isFirst, reads⟩
      rcases Option.map_eq_some_iff.mp reads with ⟨others, readsOthers, rfl⟩
      rcases inductionHypothesis distinct readsOthers with ⟨value, rfl, isValue⟩
      have own : Function.update value field.name first field.name = first :=
        Function.update_self ..
      have other {name : String} (isLater : name ∈ fields.map Field.name) :
          Function.update value field.name first name = value name :=
        Function.update_of_ne (ne_of_mem_of_not_mem isLater notLater) ..
      refine ⟨Function.update value field.name first, ?_, List.forall_mem_cons.mpr ⟨?_, ?_⟩⟩
      · have later : tabulate (fields.map Field.name) value =
            tabulate (fields.map Field.name) (Function.update value field.name first) :=
          List.map_congr_left fun name isLater => by rw [other isLater]
        rw [later, List.map_cons, tabulate, tabulate, List.map_cons, own]
      · rw [own, isFirst]
      · intro later isLater
        rw [other (List.mem_map_of_mem isLater), isValue later isLater]

theorem readFields_eq {value : String → Datum α} (reads : ∀ field ∈ fields,
      fieldOr given field.name field.read field.default = some (value field.name)) :
    readFields fields given = some (tabulate (fields.map Field.name) value) := by
  induction fields with
  | nil => rfl
  | cons field fields inductionHypothesis =>
      rcases List.forall_mem_cons.mp reads with ⟨isFirst, isLater⟩
      rw [readFields_cons, isFirst, Option.bind_some, inductionHypothesis isLater]
      rfl

theorem lookup_tabulate_name {field : Field α} (isField : field ∈ fields)
    (value : String → Datum α) :
    lookup field.name (tabulate (fields.map Field.name) value) = some (value field.name) :=
  Datum.lookup_tabulate (List.mem_map_of_mem isField) value

theorem exists_readFields (reads : ∀ field ∈ fields,
      (fieldOr given field.name field.read field.default).isSome) :
    ∃ written, readFields fields given = some written := by
  induction fields with
  | nil => exact ⟨[], rfl⟩
  | cons field fields inductionHypothesis =>
      rcases List.forall_mem_cons.mp reads with ⟨first, later⟩
      rcases Option.isSome_iff_exists.mp first with ⟨value, isFirst⟩
      rcases inductionHypothesis later with ⟨others, isLater⟩
      exact ⟨(field.name, value) :: others, by rw [readFields_cons, isFirst, isLater]; rfl⟩

/-- Each field has a value that it reads as it is. -/
def IsNormal (fields : List (Field α)) (value : String → Datum α) : Prop :=
  ∀ field ∈ fields, field.read (value field.name) = some (value field.name)

variable {value : String → Datum α}

theorem IsNormal.readFields_tabulate (normal : IsNormal fields value) :
    readFields fields (tabulate (fields.map Field.name) value) =
      some (tabulate (fields.map Field.name) value) := by
  refine readFields_eq fun field isField => ?_
  rw [fieldOr, lookup_tabulate_name isField]
  exact normal field isField

/-- Over values that are read as they are, a field that is named is what is named over its
value, and a field that is not named stays. -/
theorem IsNormal.readFields_overlayFields (normal : IsNormal fields value)
    (distinct : (fields.map Field.name).Nodup) (distinctGiven : (given.map Prod.fst).Nodup)
    (accepts : ∀ field ∈ fields, ∀ upper, lookup field.name given = some upper →
      (field.read ((value field.name).overlay upper)).isSome) :
    ∃ after, readFields fields (overlayFields (tabulate (fields.map Field.name) value) given) =
        some (tabulate (fields.map Field.name) after) ∧
      ∀ field ∈ fields, match lookup field.name given with
        | none => after field.name = value field.name
        | some upper => field.read ((value field.name).overlay upper) = some (after field.name) := by
  have merged (field : Field α) (isField : field ∈ fields) :
      fieldOr (overlayFields (tabulate (fields.map Field.name) value) given) field.name field.read
          field.default =
        match lookup field.name given with
        | none => some (value field.name)
        | some upper => field.read ((value field.name).overlay upper) := by
    have isOld := lookup_tabulate_name isField value
    have distinctBelow :
        ((tabulate (fields.map Field.name) value).map Prod.fst).Nodup := by
      rwa [Datum.map_tabulate]
    rw [fieldOr]
    cases named : lookup field.name given with
    | none =>
        rw [Datum.lookup_overlayFields_of_none named, isOld]
        exact normal field isField
    | some upper =>
        rw [Datum.lookup_overlayFields_of_some distinctGiven distinctBelow named, isOld]
        rfl
  have readable : ∀ field ∈ fields, (fieldOr (overlayFields (tabulate (fields.map Field.name) value)
      given) field.name field.read field.default).isSome := by
    intro field isField
    rw [merged field isField]
    cases named : lookup field.name given with
    | none => rfl
    | some upper => exact accepts field isField upper named
  rcases exists_readFields readable with ⟨written, reads⟩
  rcases exists_of_readFields distinct reads with ⟨after, rfl, isAfter⟩
  refine ⟨after, reads, fun field isField => ?_⟩
  have isMerged := (merged field isField).symm.trans (isAfter field isField)
  cases named : lookup field.name given with
  | none =>
      rw [named] at isMerged
      exact (Option.some.inj isMerged).symm
  | some upper =>
      rw [named] at isMerged
      exact isMerged

end Fields

/-! ## Fusions -/

namespace Fusion

/-- A part of a fusion as it is taken and written again. -/
def normalPart? (name : String) (value : Datum α) : Option (Datum α) :=
  if name = "kind" then value.text?.map .text else value.real?.map .real

/-- A part of a fusion is the one that is given, else the one before. -/
def partOver (before given : List (String × Datum α)) (name : String) : Option (Datum α) :=
  (lookup name given).or (lookup name before)

/-- Parts that make a fusion together with those before: a kind that is known and, if it is
the weighted one, all the weights. -/
def Accepts (before given : List (String × Datum α)) : Prop :=
  ∃ kind ∈ ["sum", "weighted", "max"], (partOver before given "kind").bind Datum.text? = some kind ∧
    (kind = "weighted" → ∀ name ∈ ["ppr", "lexical", "cochange"],
      ((partOver before given name).bind Datum.real?).isSome)

/-- Every part that a fusion has is the given one, and the one before if none is given. -/
def Follows (before after : Datum α) (given : List (String × Datum α)) : Prop :=
  ∀ name value, after.field? name = some value → match lookup name given with
    | none => before.field? name = some value
    | some upper => normalPart? name upper = some value

omit [Scalar α] in
theorem requiredField_eq {β : Type} (fields : List (String × Datum α)) (name : String)
    (read : Datum α → Option β) :
    requiredField fields name read = (lookup name fields).bind read := by
  rw [requiredField]
  cases lookup name fields <;> rfl

variable {fusion : Fusion α} {fields given : List (String × Datum α)}

theorem ofDatum?_record (fields : List (String × Datum α)) :
    ofDatum? (.record fields) = ((lookup "kind" fields).bind Datum.text?).bind fun kind =>
      if kind = "sum" then some .sum
      else if kind = "max" then some .maximum
      else if kind = "weighted" then
        ((lookup "ppr" fields).bind Datum.real?).bind fun walk =>
        ((lookup "lexical" fields).bind Datum.real?).bind fun lexical =>
        ((lookup "cochange" fields).bind Datum.real?).bind fun cochange =>
        some (.weighted walk lexical cochange)
      else none := by
  simp only [ofDatum?, requiredField_eq]
  rfl

theorem normalPart?_weight {name : String} {value : Datum α} {x : α} (other : name ≠ "kind")
    (reads : value.real? = some x) : normalPart? name value = some (.real x) := by
  rw [normalPart?, if_neg other, reads, Option.map_some]

omit [Scalar α] in
theorem mem_fields_iff {name : String} {value : Datum α} : (name, value) ∈ fusion.fields ↔
    match fusion with
    | .sum => name = "kind" ∧ value = .text "sum"
    | .weighted walk lexical cochange =>
      name = "kind" ∧ value = .text "weighted" ∨ name = "ppr" ∧ value = .real walk ∨
        name = "lexical" ∧ value = .real lexical ∨ name = "cochange" ∧ value = .real cochange
    | .maximum => name = "kind" ∧ value = .text "max" := by
  cases fusion <;> simp [Fusion.fields]

/-- What a fusion has was read from the part of that name. -/
theorem exists_source (reads : ofDatum? (.record fields) = some fusion) {name : String}
    {value : Datum α} (has : lookup name fusion.fields = some value) :
    ∃ source, lookup name fields = some source ∧ normalPart? name source = some value := by
  have isPart := mem_fields_iff.mp (Datum.mem_of_lookup_eq_some has)
  rw [ofDatum?_record, Option.bind_eq_some_iff] at reads
  rcases reads with ⟨kind, isKind, reads⟩
  rcases Option.bind_eq_some_iff.mp isKind with ⟨source, found, isText⟩
  have ofKind : normalPart? "kind" source = some (.text kind) := by
    rw [normalPart?, if_pos rfl, isText, Option.map_some]
  split_ifs at reads with isSum isMax isWeighted
  · cases reads
    rcases isPart with ⟨rfl, rfl⟩
    exact ⟨source, found, isSum ▸ ofKind⟩
  · cases reads
    rcases isPart with ⟨rfl, rfl⟩
    exact ⟨source, found, isMax ▸ ofKind⟩
  · simp only [Option.bind_eq_some_iff] at reads
    rcases reads with ⟨walk, ⟨ofWalk, foundWalk, isWalk⟩, lexical,
      ⟨ofLexical, foundLexical, isLexical⟩, cochange, ⟨ofCochange, foundCochange, isCochange⟩, same⟩
    cases same
    rcases isPart with ⟨rfl, rfl⟩ | ⟨rfl, rfl⟩ | ⟨rfl, rfl⟩ | ⟨rfl, rfl⟩
    · exact ⟨source, found, isWeighted ▸ ofKind⟩
    · exact ⟨ofWalk, foundWalk, normalPart?_weight (by decide) isWalk⟩
    · exact ⟨ofLexical, foundLexical, normalPart?_weight (by decide) isLexical⟩
    · exact ⟨ofCochange, foundCochange, normalPart?_weight (by decide) isCochange⟩

theorem exists_ofDatum? {kind : String} (isKind : kind ∈ ["sum", "weighted", "max"])
    (reads : (lookup "kind" fields).bind Datum.text? = some kind)
    (weights : kind = "weighted" → ∀ name ∈ ["ppr", "lexical", "cochange"],
      ((lookup name fields).bind Datum.real?).isSome) :
    ∃ fusion, ofDatum? (.record fields) = some fusion := by
  rw [ofDatum?_record, reads, Option.bind_some]
  simp only [List.mem_cons, List.not_mem_nil, or_false] at isKind
  rcases isKind with rfl | rfl | rfl
  · exact ⟨.sum, rfl⟩
  · have weights := weights rfl
    simp only [List.forall_mem_cons, Option.isSome_iff_exists] at weights
    rcases weights with ⟨⟨walk, isWalk⟩, ⟨lexical, isLexical⟩, ⟨cochange, isCochange⟩, -⟩
    exact ⟨.weighted walk lexical cochange, by rw [isWalk, isLexical, isCochange]; rfl⟩
  · exact ⟨.maximum, rfl⟩

omit [Scalar α] in
theorem nodup_fields (fusion : Fusion α) : (fusion.fields.map Prod.fst).Nodup := by
  cases fusion <;> simp [Fusion.fields]

omit [Scalar α] in
theorem flat_fields (fusion : Fusion α) : ∀ field ∈ fusion.fields, field.2.fields? = none := by
  cases fusion <;> simp [Fusion.fields, Datum.fields?]

/-- A part of a fusion is taken as it is. -/
theorem normalPart?_eq {name : String} {value : Datum α}
    (has : lookup name fusion.fields = some value) : normalPart? name value = some value := by
  have isPart := mem_fields_iff.mp (Datum.mem_of_lookup_eq_some has)
  cases fusion with
  | sum =>
      rcases isPart with ⟨rfl, rfl⟩
      rfl
  | weighted walk lexical cochange =>
      rcases isPart with ⟨rfl, rfl⟩ | ⟨rfl, rfl⟩ | ⟨rfl, rfl⟩ | ⟨rfl, rfl⟩ <;> rfl
  | maximum =>
      rcases isPart with ⟨rfl, rfl⟩
      rfl

theorem override_follows (distinct : (given.map Prod.fst).Nodup)
    (accepts : Accepts fusion.fields given) :
    ∃ after : Fusion α,
      ofDatum? ((Datum.record fusion.fields).overlay (.record given)) = some after ∧
      Follows (.record fusion.fields) (.record after.fields) given := by
  have merged (name : String) : lookup name (overlayFields fusion.fields given) =
      partOver fusion.fields given name :=
    Datum.lookup_overlayFields_of_flat distinct fusion.nodup_fields fusion.flat_fields name
  rw [Datum.overlay_record]
  rcases accepts with ⟨kind, isKind, reads, weights⟩
  have readsMerged : (lookup "kind" (overlayFields fusion.fields given)).bind Datum.text? =
      some kind := by rw [merged, reads]
  rcases exists_ofDatum? isKind readsMerged (by simpa only [merged] using weights) with
    ⟨after, isAfter⟩
  refine ⟨after, isAfter, fun name value has => ?_⟩
  rcases exists_source isAfter has with ⟨source, isSource, isValue⟩
  rw [merged, partOver] at isSource
  cases named : lookup name given with
  | none =>
      rw [named, Option.none_or] at isSource
      have same := (normalPart?_eq isSource).symm.trans isValue
      exact isSource.trans same
  | some upper =>
      rw [named, Option.some_or] at isSource
      cases isSource
      exact isValue

end Fusion

/-! ## Keys -/

namespace KeyKind

/-- Whether a key takes what is given for it; the parts that are given of a fusion have to make
one with the others. -/
def Accepts (kind : KeyKind) (before given : Datum α) : Prop :=
  match kind, before, given with
  | fusion, .record before, .record given => Fusion.Accepts before given
  | kind, _, given => (kind.normal? given).isSome

/-- What a key holds after an override: what was given as the key takes it, and what it held
before if nothing was given. -/
def Follows (kind : KeyKind) (before after : Datum α) (given : Option (Datum α)) : Prop :=
  match kind, given with
  | _, none => after = before
  | fusion, some (.record given) => Fusion.Follows before after given
  | kind, some given => kind.normal? given = some after

variable {kind : KeyKind} {before given : Datum α}

theorem noRecord_of_normal? (other : kind ≠ fusion) (normal : kind.normal? given = some before) :
    before.fields? = none := by
  cases kind with
  | fusion => exact absurd rfl other
  | seedContent =>
      rcases Option.map_eq_some_iff.mp normal with ⟨content, -, rfl⟩
      cases content <;> rfl
  | _ =>
      rcases Option.map_eq_some_iff.mp normal with ⟨taken, -, rfl⟩
      rfl

/-- Only a record that is given for a fusion is taken part by part. -/
theorem accepts_iff_of_plain (plain : kind ≠ fusion ∨ given.fields? = none) :
    kind.Accepts before given ↔ (kind.normal? given).isSome := by
  rw [Accepts.eq_def]
  split
  · rcases plain with other | noRecord
    · exact absurd rfl other
    · cases noRecord
  · rfl

theorem follows_iff_of_plain (plain : kind ≠ fusion ∨ given.fields? = none) (after : Datum α) :
    kind.Follows before after (some given) ↔ kind.normal? given = some after := by
  rw [Follows.eq_def]
  split
  · next nothing => cases nothing
  · next isRecord =>
      cases isRecord
      rcases plain with other | noRecord
      · exact absurd rfl other
      · cases noRecord
  · next isGiven =>
      cases isGiven
      rfl

theorem override_follows (normal : kind.normal? before = some before) (distinct : given.IsDistinct)
    (accepts : kind.Accepts before given) :
    ∃ after, kind.normal? (before.overlay given) = some after ∧
      kind.Follows before after (some given) := by
  by_cases plain : kind ≠ fusion ∨ given.fields? = none
  · have asGiven : before.overlay given = given := by
      rcases plain with other | noRecord
      · exact Datum.overlay_of_noRecord_below (noRecord_of_normal? other normal) given
      · exact Datum.overlay_of_noRecord noRecord before
    rcases Option.isSome_iff_exists.mp ((accepts_iff_of_plain plain).mp accepts) with
      ⟨after, isAfter⟩
    exact ⟨after, asGiven.symm ▸ isAfter, (follows_iff_of_plain plain after).mpr isAfter⟩
  · rw [not_or, not_not] at plain
    rcases plain with ⟨rfl, isRecord⟩
    rcases Option.map_eq_some_iff.mp normal with ⟨held, -, rfl⟩
    cases given with
    | record parts =>
        rcases Fusion.override_follows distinct.names accepts with ⟨after, isAfter, follows⟩
        exact ⟨.record after.fields, congrArg (Option.map _) isAfter, follows⟩
    | _ => exact absurd rfl isRecord

end KeyKind

/-! ## Sections -/

omit [Scalar α] in
theorem readFields_of_nothing (fields : List (Field α)) :
    readFields fields [] = some (fields.map fun field => (field.name, field.default)) := by
  induction fields with
  | nil => rfl
  | cons field fields inductionHypothesis => rw [readFields_cons, inductionHypothesis]; rfl

namespace Section

variable {part : Section α} {dialect : RecordDialect} {value written : Datum α}

/-- A section in which every key is taken as it is. -/
def IsNormal (part : Section α) (value : Datum α) : Prop :=
  ∃ held, value = .record (tabulate (part.fields.map Field.name) held) ∧
    ContextPack.IsNormal part.fields held

theorem IsNormal.read?_eq (normal : part.IsNormal value) (dialect : RecordDialect) :
    part.read? dialect value = some value := by
  rcases normal with ⟨held, rfl, normal⟩
  exact congrArg (Option.map Datum.record) normal.readFields_tabulate

/-- What has been read of a section is normal. -/
theorem isNormal_of_read? (reads : part.read? dialect value = some written) :
    part.IsNormal written := by
  rcases Option.bind_eq_some_iff.mp reads with ⟨given, -, reads⟩
  rcases Option.map_eq_some_iff.mp reads with ⟨fields, isRead, rfl⟩
  rcases exists_of_readFields part.nodup_fields isRead with ⟨held, rfl, isHeld⟩
  refine ⟨held, rfl, fun field isField => ?_⟩
  rcases List.mem_map.mp isField with ⟨key, -, rfl⟩
  have isKey := isHeld key.field isField
  rw [fieldOr] at isKey
  split at isKey
  · exact KeyKind.normal?_of_normal? isKey
  · rw [← Option.some.inj isKey]
    exact key.normal

theorem isNormal_defaults (part : Section α) : part.IsNormal (.record part.defaults) := by
  have reads : part.read? .environment (.record []) = some (.record part.defaults) := by
    rw [read?, RecordDialect.fields?, Option.bind_some, readFields_of_nothing, fields, List.map_map]
    rfl
  exact isNormal_of_read? reads

/-- Whether a section takes what is given for it: key by key, or as a whole if it is no
record. -/
def Accepts (part : Section α) (before given : Datum α) : Prop :=
  match given with
  | .record given => ∀ key ∈ part.keys, ∀ old upper, before.field? key.name = some old →
      lookup key.name given = some upper → key.kind.Accepts old upper
  | given => (part.read? .environment given).isSome

/-- What a section holds after an override: what every key holds after it, or what was given as
a whole. -/
def Follows (part : Section α) (before after : Datum α) (given : Option (Datum α)) : Prop :=
  match given with
  | none => after = before
  | some (.record given) => ∀ key ∈ part.keys, ∃ old new,
      before.field? key.name = some old ∧ after.field? key.name = some new ∧
        key.kind.Follows old new (lookup key.name given)
  | some given => part.read? .environment given = some after

variable {before given : Datum α}

theorem override_follows (normal : part.IsNormal before) (distinct : given.IsDistinct)
    (accepts : part.Accepts before given) :
    ∃ after, part.read? .environment (before.overlay given) = some after ∧
      part.Follows before after (some given) := by
  rcases normal with ⟨held, rfl, normal⟩
  cases given with
  | record given =>
      have lookup_held {key : Key α} (isKey : key ∈ part.keys) (value : String → Datum α) :
          lookup key.name (tabulate (part.fields.map Field.name) value) = some (value key.name) :=
        lookup_tabulate_name (List.mem_map_of_mem isKey : key.field ∈ part.fields) value
      have takes (key : Key α) (isKey : key ∈ part.keys) (upper : Datum α)
          (named : lookup key.name given = some upper) :
          ∃ after, key.kind.normal? ((held key.name).overlay upper) = some after ∧
            key.kind.Follows (held key.name) after (some upper) :=
        KeyKind.override_follows (normal _ (List.mem_map_of_mem isKey)) (distinct.of_lookup named)
          (accepts key isKey _ upper (lookup_held isKey held) named)
      have accepted : ∀ field ∈ part.fields, ∀ upper, lookup field.name given = some upper →
          (field.read ((held field.name).overlay upper)).isSome := by
        intro field isField upper named
        rcases List.mem_map.mp isField with ⟨key, isKey, rfl⟩
        rcases takes key isKey upper named with ⟨after, isAfter, -⟩
        exact Option.isSome_iff_exists.mpr ⟨after, isAfter⟩
      rcases normal.readFields_overlayFields part.nodup_fields distinct.names accepted with
        ⟨after, reads, isAfter⟩
      refine ⟨.record (tabulate (part.fields.map Field.name) after), ?_, fun key isKey => ?_⟩
      · rw [Datum.overlay_record]
        exact congrArg (Option.map Datum.record) reads
      · refine ⟨held key.name, after key.name, lookup_held isKey held, lookup_held isKey after, ?_⟩
        have isNew := isAfter key.field (List.mem_map_of_mem isKey)
        dsimp only [Key.field] at isNew
        cases named : lookup key.name given with
        | none =>
            rw [named] at isNew
            exact isNew
        | some upper =>
            rw [named] at isNew
            rcases takes key isKey upper named with ⟨new, isTaken, follows⟩
            rw [← Option.some.inj (isTaken.symm.trans isNew)]
            exact follows
  | _ =>
      rcases Option.isSome_iff_exists.mp accepts with ⟨after, isAfter⟩
      refine ⟨after, ?_, isAfter⟩
      rw [Datum.overlay_of_noRecord rfl]
      exact isAfter

end Section

/-! ## Settings -/

namespace Settings

variable {dialect : RecordDialect} {lower : Datum α} {base : Settings α}

theorem nodup_fields (dialect : RecordDialect) :
    ((sections.map (Section.field (α := α) dialect)).map Field.name).Nodup := by
  rw [List.map_map]
  exact nodup_sections

/-- Settings that were read are sections that were read. -/
theorem exists_of_ofDatum? (isBase : ofDatum? dialect lower = some base) :
    ∃ held, base.fields = tabulate ((sections (α := α)).map Section.name) held ∧
      ∀ part ∈ sections, part.IsNormal (held part.name) := by
  have reads : (ofDatum? dialect lower).map toDatum = some base.toDatum := by
    rw [isBase, Option.map_some]
  rw [read?_eq] at reads
  rcases Option.bind_eq_some_iff.mp reads with ⟨given, -, reads⟩
  rcases Option.map_eq_some_iff.mp reads with ⟨written, isRead, same⟩
  rcases exists_of_readFields (nodup_fields dialect) isRead with ⟨held, rfl, isHeld⟩
  refine ⟨held, ?_, fun part isPart => ?_⟩
  · rw [List.map_map] at same
    exact (Datum.record.inj same).symm
  · have isSection := isHeld (part.field dialect) (List.mem_map_of_mem isPart)
    dsimp only [Section.field] at isSection
    rw [fieldOr] at isSection
    split at isSection
    · exact Section.isNormal_of_read? isSection
    · rw [← Option.some.inj isSection]
      exact part.isNormal_defaults

theorem exists_ofDatum? {fields written : List (String × Datum α)}
    (reads : readFields (sections.map (Section.field dialect)) fields = some written) :
    ∃ settings, ofDatum? dialect (.record fields) = some settings ∧ settings.fields = written := by
  have isWritten : (ofDatum? dialect (.record fields)).map toDatum = some (.record written) := by
    rw [read?_eq, RecordDialect.fields?, Option.bind_some, reads, Option.map_some]
  rcases Option.map_eq_some_iff.mp isWritten with ⟨settings, isSettings, same⟩
  exact ⟨settings, isSettings, Datum.record.inj same⟩

/-- Whether every section takes what is given for it. -/
def Accepts (base : Settings α) (upper : List (String × Datum α)) : Prop :=
  ∀ part ∈ sections, ∀ before given, lookup part.name base.fields = some before →
    lookup part.name upper = some given → part.Accepts before given

/-- After an override every section holds what follows from what was given for it. -/
def Follows (base settings : Settings α) (upper : List (String × Datum α)) : Prop :=
  ∀ part ∈ sections, ∃ before after, lookup part.name base.fields = some before ∧
    lookup part.name settings.fields = some after ∧
      part.Follows before after (lookup part.name upper)

theorem lookup_tabulate_section {part : Section α} (isPart : part ∈ sections)
    (value : String → Datum α) :
    lookup part.name (tabulate ((sections (α := α)).map Section.name) value) =
      some (value part.name) :=
  Datum.lookup_tabulate (List.mem_map_of_mem isPart) value

/-- Sections are called the same in every dialect. -/
theorem tabulate_field (dialect : RecordDialect) (value : String → Datum α) :
    tabulate ((sections.map (Section.field (α := α) dialect)).map Field.name) value =
      tabulate ((sections (α := α)).map Section.name) value := by
  rw [List.map_map]
  rfl

theorem isNormal_sections {held : String → Datum α}
    (isNormal : ∀ part ∈ sections, part.IsNormal (held part.name)) (dialect : RecordDialect) :
    IsNormal (sections.map (Section.field dialect)) held := by
  intro field isField
  rcases List.mem_map.mp isField with ⟨part, isPart, rfl⟩
  exact (isNormal part isPart).read?_eq dialect

theorem override_follows (isBase : ofDatum? dialect lower = some base)
    {upper : List (String × Datum α)} (distinct : (Datum.record upper).IsDistinct)
    (accepts : base.Accepts upper) :
    ∃ settings, base.override? (.record upper) = some settings ∧ base.Follows settings upper := by
  rcases exists_of_ofDatum? isBase with ⟨held, base_eq, isNormal⟩
  have takes (part : Section α) (isPart : part ∈ sections) (given : Datum α)
      (named : lookup part.name upper = some given) :
      ∃ after, part.read? .environment ((held part.name).overlay given) = some after ∧
        part.Follows (held part.name) after (some given) := by
    refine Section.override_follows (isNormal part isPart) (distinct.of_lookup named) ?_
    refine accepts part isPart _ given ?_ named
    rw [base_eq, lookup_tabulate_section isPart held]
  have accepted : ∀ field ∈ sections.map (Section.field .environment), ∀ given,
      lookup field.name upper = some given →
        (field.read ((held field.name).overlay given)).isSome := by
    intro field isField given named
    rcases List.mem_map.mp isField with ⟨part, isPart, rfl⟩
    rcases takes part isPart given named with ⟨after, isAfter, -⟩
    exact Option.isSome_iff_exists.mpr ⟨after, isAfter⟩
  rcases (isNormal_sections isNormal .environment).readFields_overlayFields
    (nodup_fields .environment) distinct.names accepted with ⟨after, reads, isAfter⟩
  rw [tabulate_field, tabulate_field, ← base_eq] at reads
  rcases exists_ofDatum? reads with ⟨settings, isSettings, settings_eq⟩
  refine ⟨settings, ?_, fun part isPart => ⟨held part.name, after part.name, ?_, ?_, ?_⟩⟩
  · rw [override?, toDatum, Datum.overlay_record, isSettings]
  · rw [base_eq, lookup_tabulate_section isPart held]
  · rw [settings_eq, lookup_tabulate_section isPart after]
  · have isNew := isAfter (part.field .environment) (List.mem_map_of_mem isPart)
    dsimp only [Section.field] at isNew
    cases named : lookup part.name upper with
    | none =>
        rw [named] at isNew
        exact isNew
    | some given =>
        rw [named] at isNew
        rcases takes part isPart given named with ⟨new, isTaken, follows⟩
        rw [← Option.some.inj (isTaken.symm.trans isNew)]
        exact follows

/-- Settings that were read are read again as they are. -/
theorem override?_nothing (isBase : ofDatum? dialect lower = some base) :
    base.override? (.record []) = some base := by
  rcases exists_of_ofDatum? isBase with ⟨held, base_eq, isNormal⟩
  have reads := (isNormal_sections isNormal .environment).readFields_tabulate
  rw [tabulate_field, ← base_eq] at reads
  rcases exists_ofDatum? reads with ⟨settings, isSettings, settings_eq⟩
  have same : settings = base := toDatum_injective (congrArg Datum.record settings_eq)
  rw [override?, toDatum, Datum.overlay_record, Datum.overlayFields, isSettings, same]

/-- An override that is accepted succeeds.  A key that it sets holds the normalized value then,
every other key what it held before, and an empty override changes nothing. -/
theorem override_changes_named (dialect : RecordDialect) {lower : Datum α} {base : Settings α}
    (isBase : ofDatum? dialect lower = some base) {upper : List (String × Datum α)}
    (distinct : (Datum.record upper).IsDistinct) (accepts : base.Accepts upper) :
    (∃ settings, base.override? (.record upper) = some settings ∧ base.Follows settings upper) ∧
      base.override? (.record []) = some base :=
  ⟨override_follows isBase distinct accepts, override?_nothing isBase⟩

/-- Lists as they may be written in a file. -/
def listedSettings : Datum ℚ :=
  .record [("scan", .record [("include_extensions", .text "PY, .Js,,"),
    ("exclude_globs", .list [.text " dist "])])]

/-- One list anew. -/
def otherGlobs : List (String × Datum ℚ) :=
  [("scan", .record [("exclude_globs", .text "build, target ")])]

theorem isDistinct_otherGlobs : (Datum.record otherGlobs).IsDistinct := by
  refine .record (by decide) (List.forall_mem_singleton.mpr (.record (by decide) ?_))
  exact List.forall_mem_singleton.mpr (.plain rfl)

theorem accepts_otherGlobs (base : Settings ℚ) : base.Accepts otherGlobs := by
  intro part isPart before given _ named
  simp only [sections, List.mem_cons, List.not_mem_nil, or_false] at isPart
  rcases isPart with rfl | rfl | rfl | rfl | rfl | rfl | rfl | rfl
  all_goals cases named
  intro key isKey old upper _ named
  simp only [ScanSettings.part, List.mem_cons, List.not_mem_nil, or_false] at isKey
  rcases isKey with rfl | rfl | rfl | rfl
  all_goals cases named
  exact (KeyKind.accepts_iff_of_plain (Or.inr rfl)).mpr rfl

theorem override_changes_named_of_globs :
    ∃ base settings : Settings ℚ, ofDatum? .toml listedSettings = some base ∧
      base.override? (.record otherGlobs) = some settings ∧
      settings.scan.includeExtensions = [".py", ".js"] ∧
      settings.scan.excludeGlobs = ["build", "target"] ∧ settings.limits = base.limits ∧
      base.override? (.record []) = some base := by
  rcases Option.map_eq_some_iff.mp (by decide +kernel : (ofDatum? .toml listedSettings).map scan =
    some ⟨[".py", ".js"], ["dist"], true, false⟩) with ⟨base, isBase, isScan⟩
  rcases override_changes_named .toml isBase isDistinct_otherGlobs (accepts_otherGlobs base) with
    ⟨⟨settings, isSettings, follows⟩, same⟩
  have isLimits : settings.limits = base.limits := by
    rcases follows Limits.part (by simp [sections]) with ⟨before, after, isBefore, isAfter, stays⟩
    cases isBefore
    cases isAfter
    exact Limits.fields_inj.mp (Datum.record.inj stays)
  rcases follows ScanSettings.part (by simp [sections]) with
    ⟨before, after, isBefore, isAfter, keys⟩
  cases isBefore
  cases isAfter
  have isKept : settings.scan.includeExtensions = base.scan.includeExtensions := by
    rcases keys _ List.mem_cons_self with ⟨old, new, isOld, isNew, stays⟩
    cases isOld
    cases isNew
    exact textsDatum_inj.mp stays
  have isSet : settings.scan.excludeGlobs = commaItems "build, target " := by
    rcases keys _ (List.mem_cons_of_mem _ List.mem_cons_self) with
      ⟨old, new, isOld, isNew, normalized⟩
    cases isOld
    cases isNew
    exact (textsDatum_inj.mp (Option.some.inj normalized)).symm
  refine ⟨base, settings, isBase, isSettings, ?_, ?_, isLimits, same⟩
  · rw [isKept, isScan]
  · rw [isSet]
    decide +kernel

end Settings

end ContextPack
