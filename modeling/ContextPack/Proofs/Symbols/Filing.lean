import ContextPack.Proofs.Symbols.Visiting

namespace ContextPack.Symbols

open Syntax (Tree Placed Reaches Visits)

/-!
# How names are filed

Facts are the marks of a tree sorted into sets.  No identifier is lost in sorting, no name
is filed as a mere reference besides something stronger, and what is defined is told by the
definitions and by the bindings at module level.
-/

/-! ## Facts as sets of marks -/

theorem mem_namesOf (select : Mark → Option String) (marks : List Mark) (name : String) :
    name ∈ namesOf select marks ↔ ∃ mark ∈ marks, select mark = some name := by
  rw [namesOf, Text.mem_distinctSorted, List.mem_filterMap]

theorem namesOf_congr (select : Mark → Option String) {first second : List Mark}
    (same : ∀ mark, mark ∈ first ↔ mark ∈ second) : namesOf select first = namesOf select second := by
  refine Text.distinctSorted_congr fun name => ?_
  simp only [List.mem_filterMap, same]

/-- Facts do not tell in which order marks were left, or how often. -/
theorem factsOf_congr (hasModule : Bool) {first second : List Mark}
    (same : ∀ mark, mark ∈ first ↔ mark ∈ second) :
    factsOf hasModule first = factsOf hasModule second := by
  simp only [factsOf, namesOf_congr _ same]

section Facts

variable (hasModule : Bool) (marks : List Mark) (name : String)

theorem mem_defines : name ∈ (factsOf hasModule marks).defines ↔ .defines name ∈ marks := by
  have selects (mark : Mark) : mark.defined? = some name ↔ mark = .defines name := by
    cases mark <;> simp [Mark.defined?]
  change name ∈ namesOf Mark.defined? marks ↔ _
  simp [mem_namesOf, selects]

theorem mem_calls : name ∈ (factsOf hasModule marks).calls ↔ .calls name ∈ marks := by
  have selects (mark : Mark) : mark.called? = some name ↔ mark = .calls name := by
    cases mark <;> simp [Mark.called?]
  change name ∈ namesOf Mark.called? marks ↔ _
  simp [mem_namesOf, selects]

theorem mem_types :
    name ∈ (factsOf hasModule marks).types ↔
      .usesType name ∈ marks ∧ name ∉ (factsOf hasModule marks).defines := by
  have selects (mark : Mark) : mark.usedAsType? = some name ↔ mark = .usesType name := by
    cases mark <;> simp [Mark.usedAsType?]
  change name ∈ (namesOf Mark.usedAsType? marks).filter (fun name =>
    !(factsOf hasModule marks).defines.contains name) ↔ _
  simp [mem_namesOf, selects]

theorem mem_references :
    name ∈ (factsOf hasModule marks).references ↔
      .mentions name ∈ marks ∧ name ∉ (factsOf hasModule marks).defines ∧
        name ∉ (factsOf hasModule marks).calls ∧ name ∉ (factsOf hasModule marks).types := by
  have selects (mark : Mark) : mark.mentioned? = some name ↔ mark = .mentions name := by
    cases mark <;> simp [Mark.mentioned?]
  change name ∈ (namesOf Mark.mentioned? marks).filter (fun name =>
    !(factsOf hasModule marks).defines.contains name &&
      !(factsOf hasModule marks).calls.contains name &&
      !(factsOf hasModule marks).types.contains name) ↔ _
  simp [mem_namesOf, selects, and_assoc]

end Facts

/-! ## Marks that link modules -/

/-- Whether a mark says how files are linked, and so nothing about symbols. -/
def Mark.links : Mark → Bool
  | .imports _ | .exports _ => true
  | .defines _ | .calls _ | .usesType _ | .mentions _ => false

theorem mem_inField_iff (tree : Tree) (field : String) (marks : Tree → List Mark) (mark : Mark) :
    mark ∈ inField tree field marks ↔ ∃ child, tree.child? field = some child ∧ mark ∈ marks child := by
  rw [inField]
  cases tree.child? field <;> simp

section Links

variable {mark : Mark} (tree : Tree)

theorem links_of_mem_quotedImports (isMark : mark ∈ quotedImports tree) : mark.links = true := by
  rw [quotedImports] at isMark
  split at isMark
  · cases isMark
  · rw [List.mem_singleton.mp isMark]
    rfl

theorem links_of_mem_sourceImports (isMark : mark ∈ sourceImports tree) : mark.links = true := by
  rcases (mem_inField_iff _ _ _ _).mp isMark with ⟨literal, -, isImport⟩
  exact links_of_mem_quotedImports literal isImport

theorem links_of_mem_loadedModule {callee : Tree} (isMark : mark ∈ loadedModule tree callee) :
    mark.links = true := by
  rw [loadedModule] at isMark
  split at isMark
  · split at isMark
    · split at isMark
      · exact links_of_mem_quotedImports _ isMark
      · cases isMark
    · cases isMark
  · cases isMark

theorem links_of_mem_itemImports (isMark : mark ∈ itemImports tree) : mark.links = true := by
  rcases (mem_inField_iff _ _ _ _).mp isMark with ⟨source, -, isImport⟩
  rcases List.mem_cons.mp isImport with rfl | isItem
  · rfl
  · split at isItem
    · rcases List.mem_map.mp isItem with ⟨item, -, rfl⟩
      rfl
    · cases isItem

theorem links_of_mem_nameExports (isMark : mark ∈ nameExports tree) : mark.links = true := by
  rcases (mem_inField_iff _ _ _ _).mp isMark with ⟨name, -, isExport⟩
  rw [List.mem_singleton.mp isExport]
  rfl

theorem links_of_mem_itemExports (isMark : mark ∈ itemExports tree) : mark.links = true := by
  rw [itemExports] at isMark
  split at isMark
  · rw [List.mem_singleton.mp isMark]
    rfl
  · exact links_of_mem_nameExports tree isMark

theorem links_of_mem_declarationExports (isMark : mark ∈ declarationExports tree) :
    mark.links = true := by
  rcases List.mem_append.mp isMark with own | bound
  · exact links_of_mem_nameExports tree own
  · rcases List.mem_flatMap.mp bound with ⟨child, -, isExport⟩
    split at isExport
    · exact links_of_mem_nameExports child isExport
    · cases isExport

theorem links_of_mem_exportMarks (isMark : mark ∈ exportMarks tree) : mark.links = true := by
  rw [exportMarks, List.mem_append, List.mem_append] at isMark
  rcases isMark with (source | declared) | item
  · exact links_of_mem_sourceImports tree source
  · rcases (mem_inField_iff _ _ _ _).mp declared with ⟨declaration, -, isExport⟩
    exact links_of_mem_declarationExports declaration isExport
  · rcases List.mem_flatMap.mp item with ⟨clause, -, isItem⟩
    split at isItem
    · rcases List.mem_flatMap.mp isItem with ⟨specifier, -, isExport⟩
      exact links_of_mem_itemExports specifier isExport
    · cases isItem

end Links

/-! ## What one node says about symbols -/

/-- A node introduces a name: it is a definition that carries the name, or it binds the name as
a plain identifier, and on the way up from it to a root there are only statements that keep the
level of the module. -/
inductive Introduces (kinds : Kinds) (node : Placed) (name : String) : Prop where
  | definition {label : Tree} : node.tree.kind ∈ kinds.definitions →
      node.tree.child? "name" = some label → label.text = name → Introduces kinds node name
  | binding {target : Tree} {wrappers outside : List String} {root : String} :
      node.tree.kind ∈ kinds.topLevelBindings → node.above = wrappers ++ root :: outside →
        root ∈ rootKinds → (∀ kind ∈ wrappers, kind ∈ bindingWrappers) →
          node.tree.child? (targetField node.tree.kind) = some target →
            target.kind = "identifier" → target.text = name → Introduces kinds node name

/-- A node calls something by a name: the name ends what stands in the field for the callee. -/
def CallsBy (kinds : Kinds) (tree : Tree) (name : String) : Prop :=
  tree.kind ∈ kinds.calls ∧ name ∉ ignoredNames ∧ ∃ callee,
    tree.child? (calleeField tree.kind) = some callee ∧ calleeName? callee = some name

/-- A tree in which a node lets every identifier stand for a type. -/
inductive IsTypeRegion : Language → Tree → Tree → Prop where
  | typed {tree : Tree} : tree.kind = "type" → IsTypeRegion .python tree tree
  | superclasses {tree bases : Tree} : tree.kind = "class_definition" →
      tree.child? "superclasses" = some bases → IsTypeRegion .python tree bases
  | heritage {language : Language} {tree : Tree} : language.isScript = true →
      tree.kind = "class_heritage" → IsTypeRegion language tree tree

/-- A node makes a name stand for a type: it is the name of one, or lets it stand in a region
of types, or implements what has the name. -/
inductive UsesType (language : Language) (kinds : Kinds) (tree : Tree) (name : String) : Prop where
  | named : tree.kind ∈ kinds.typeIdentifiers → tree.text = name → UsesType language kinds tree name
  | inside {region : Tree} {node : Placed} : IsTypeRegion language tree region →
      Reaches ⟨[], region⟩ node → node.tree.kind = "identifier" → node.tree.text = name →
        UsesType language kinds tree name
  | implemented {field : String} {type label : Tree} : language = .rust → tree.kind = "impl_item" →
      field ∈ ["type", "trait"] → tree.child? field = some type → typeName? type = some label →
        label.text = name → UsesType language kinds tree name

theorem mem_symbolMarks_iff (mark : String → Mark) (symbol : Tree) (left : Mark) :
    left ∈ symbolMarks mark symbol ↔ isTelling symbol.text = true ∧ left = mark symbol.text := by
  rw [symbolMarks]
  split <;> simp [*]

section OneNode

variable (language : Language) (kinds : Kinds) {mark : Mark}

theorem mem_definitionMarks_iff (node : Placed) :
    mark ∈ definitionMarks kinds node ↔ ∃ name, mark = .defines name ∧ Introduces kinds node name := by
  rw [definitionMarks]
  constructor
  · intro isMark
    split at isMark
    · next isDefinition =>
        rcases (mem_inField_iff _ _ _ _).mp isMark with ⟨label, found, isLabel⟩
        exact ⟨label.text, List.mem_singleton.mp isLabel,
          .definition (List.contains_iff_mem.mp isDefinition) found rfl⟩
    · split at isMark
      · next isBinding =>
          rcases Bool.and_eq_true_iff.mp isBinding with ⟨binds, atTop⟩
          rcases (isTopLevel_iff _).mp atTop with ⟨wrappers, root, outside, path, isRoot, wrap⟩
          rcases (mem_inField_iff _ _ _ _).mp isMark with ⟨target, found, isTarget⟩
          split at isTarget
          · next isIdentifier =>
              exact ⟨target.text, List.mem_singleton.mp isTarget,
                .binding (List.contains_iff_mem.mp binds) path isRoot wrap found isIdentifier rfl⟩
          · cases isTarget
      · cases isMark
  · rintro ⟨name, rfl, ⟨isDefinition, found, rfl⟩ |
      ⟨isBinding, path, isRoot, wrap, found, isIdentifier, rfl⟩⟩
    · rw [if_pos (List.contains_iff_mem.mpr isDefinition), mem_inField_iff]
      exact ⟨_, found, List.mem_singleton_self _⟩
    · have notDefinition : ¬ kinds.definitions.contains node.tree.kind = true := fun isDefinition =>
        kinds.separate _ isBinding (List.contains_iff_mem.mp isDefinition)
      have atTop : isTopLevel node.above = true :=
        (isTopLevel_iff _).mpr ⟨_, _, _, path, isRoot, wrap⟩
      rw [if_neg notDefinition, if_pos (by simp [isBinding, atTop]), bindingMarks, mem_inField_iff]
      exact ⟨_, found, by simp [isIdentifier]⟩

/-- Besides what it loads, a call tells the name of what is called. -/
theorem mem_callMarks_iff (call : Tree) (aboutSymbol : mark.links = false) :
    mark ∈ callMarks language call ↔ ∃ name, mark = .calls name ∧ name ∉ ignoredNames ∧ ∃ callee,
      call.child? (calleeField call.kind) = some callee ∧ calleeName? callee = some name := by
  have noLoad (callee : Tree) :
      mark ∉ if language.isScript then loadedModule call callee else [] := by
    intro isMark
    split at isMark
    · simp [links_of_mem_loadedModule call isMark] at aboutSymbol
    · cases isMark
  simp only [callMarks, mem_inField_iff, List.mem_append, noLoad, or_false, List.mem_map,
    Option.mem_toList, Option.filter_eq_some_iff, Bool.not_eq_true', List.contains_eq_mem,
    decide_eq_false_iff_not]
  constructor
  · rintro ⟨callee, found, name, ⟨isName, counts⟩, rfl⟩
    exact ⟨name, rfl, counts, callee, found, isName⟩
  · rintro ⟨name, rfl, counts, callee, found, isName⟩
    exact ⟨callee, found, name, ⟨isName, counts⟩, rfl⟩

theorem mem_calledMarks_iff (tree : Tree) (aboutSymbol : mark.links = false) :
    (mark ∈ if kinds.calls.contains tree.kind then callMarks language tree else []) ↔
      ∃ name, mark = .calls name ∧ CallsBy kinds tree name := by
  by_cases calls : tree.kind ∈ kinds.calls
  · rw [if_pos (List.contains_iff_mem.mpr calls), mem_callMarks_iff language tree aboutSymbol]
    simp only [CallsBy, calls, true_and]
  · rw [if_neg (by simpa using calls)]
    simp [CallsBy, calls]

theorem mem_nameMarks_iff (tree : Tree) :
    mark ∈ nameMarks kinds tree ↔ isTelling tree.text = true ∧
      (mark = .usesType tree.text ∧ tree.kind ∈ kinds.typeIdentifiers ∨
        mark = .mentions tree.text ∧ tree.kind = "identifier") := by
  rw [nameMarks]
  by_cases isType : tree.kind ∈ kinds.typeIdentifiers
  · have notPlain : tree.kind ≠ "identifier" := fun same => kinds.plain (same ▸ isType)
    simp [isType, notPlain, mem_symbolMarks_iff]
  · rw [if_neg (by simpa using isType)]
    split <;> simp [*, kinds.plain, mem_symbolMarks_iff]

theorem mem_identifiersAsTypes_iff (tree : Tree) :
    mark ∈ identifiersAsTypes tree ↔ ∃ node, Reaches ⟨[], tree⟩ node ∧
      node.tree.kind = "identifier" ∧ isTelling node.tree.text = true ∧
        mark = .usesType node.tree.text := by
  simp only [identifiersAsTypes, List.mem_flatMap, Syntax.mem_walk_iff]
  refine exists_congr fun node => and_congr_right fun _ => ?_
  split <;> simp [*, mem_symbolMarks_iff]

theorem mem_implementedTypes_iff (tree : Tree) :
    mark ∈ implementedTypes tree ↔ ∃ field ∈ ["type", "trait"], ∃ type,
      tree.child? field = some type ∧ ∃ label, typeName? type = some label ∧
        isTelling label.text = true ∧ mark = .usesType label.text := by
  simp only [implementedTypes, List.mem_flatMap, mem_inField_iff, Option.mem_toList,
    mem_symbolMarks_iff]

/-- Among what is special to a language there are types in a region and those that are
implemented; everything else links modules. -/
theorem mem_languageMarks_iff (tree : Tree) (aboutSymbol : mark.links = false) :
    mark ∈ languageMarks language tree ↔
      (∃ region, IsTypeRegion language tree region ∧ mark ∈ identifiersAsTypes region) ∨
        language = .rust ∧ tree.kind = "impl_item" ∧ mark ∈ implementedTypes tree := by
  have unlinked {marks : List Mark} (linked : ∀ mark ∈ marks, mark.links = true) : mark ∉ marks := by
    intro isMark
    simp [linked mark isMark] at aboutSymbol
  constructor
  · intro isMark
    cases language with
    | python =>
        rw [languageMarks] at isMark
        split at isMark
        · next isType => exact Or.inl ⟨tree, .typed isType, isMark⟩
        · next isClass =>
            rcases (mem_inField_iff _ _ _ _).mp isMark with ⟨bases, found, isBase⟩
            exact Or.inl ⟨bases, .superclasses isClass found, isBase⟩
        · exact absurd isMark (unlinked (by simp [Mark.links]))
        · exact absurd isMark (unlinked fun _ => links_of_mem_itemImports tree)
        · cases isMark
    | javascript | typescript | tsx =>
        rw [languageMarks] at isMark
        split at isMark
        · exact absurd isMark (unlinked fun _ => links_of_mem_sourceImports tree)
        · exact absurd isMark (unlinked fun _ => links_of_mem_exportMarks tree)
        · next isHeritage => exact Or.inl ⟨tree, .heritage rfl isHeritage, isMark⟩
        · cases isMark
    | rust =>
        rw [languageMarks] at isMark
        split at isMark
        · next isImplementation => exact Or.inr ⟨rfl, isImplementation, isMark⟩
        · cases isMark
    | go | other => cases isMark
  · rintro (⟨region, ⟨isType⟩ | ⟨isClass, found⟩ | ⟨isScript, isHeritage⟩, isMark⟩ |
      ⟨rfl, isImplementation, isMark⟩)
    · simpa only [languageMarks, isType] using isMark
    · simp only [languageMarks, isClass]
      exact (mem_inField_iff _ _ _ _).mpr ⟨region, found, isMark⟩
    · cases language <;> cases isScript <;> simpa only [languageMarks, isHeritage] using isMark
    · simpa only [languageMarks, isImplementation, if_true] using isMark

/-- Types and mere mentions, as the kind of the node or the language has it. -/
theorem mem_symbols_iff (tree : Tree) (aboutSymbol : mark.links = false) :
    mark ∈ nameMarks kinds tree ∨ mark ∈ languageMarks language tree ↔
      (∃ name, mark = .usesType name ∧ isTelling name = true ∧ UsesType language kinds tree name) ∨
      ∃ name, mark = .mentions name ∧ isTelling name = true ∧ tree.kind = "identifier" ∧
        tree.text = name := by
  rw [mem_nameMarks_iff, mem_languageMarks_iff language tree aboutSymbol]
  simp only [mem_identifiersAsTypes_iff, mem_implementedTypes_iff]
  constructor
  · rintro (⟨telling, ⟨rfl, isType⟩ | ⟨rfl, isPlain⟩⟩ |
      ⟨region, isRegion, inner, reaches, isPlain, telling, rfl⟩ |
      ⟨isRust, isImplementation, field, isField, type, found, label, named, telling, rfl⟩)
    · exact Or.inl ⟨_, rfl, telling, .named isType rfl⟩
    · exact Or.inr ⟨_, rfl, telling, isPlain, rfl⟩
    · exact Or.inl ⟨_, rfl, telling, .inside isRegion reaches isPlain rfl⟩
    · exact Or.inl ⟨_, rfl, telling, .implemented isRust isImplementation isField found named rfl⟩
  · rintro (⟨name, rfl, telling, usesType⟩ | ⟨name, rfl, telling, isPlain, rfl⟩)
    · rcases usesType with ⟨isType, rfl⟩ | ⟨isRegion, reaches, isPlain, rfl⟩ |
        ⟨isRust, isImplementation, isField, found, named, rfl⟩
      · exact Or.inl ⟨telling, Or.inl ⟨rfl, isType⟩⟩
      · exact Or.inr (Or.inl ⟨_, isRegion, _, reaches, isPlain, telling, rfl⟩)
      · exact Or.inr (Or.inr ⟨isRust, isImplementation, _, isField, _, found, _, named, telling,
          rfl⟩)
    · exact Or.inl ⟨telling, Or.inr ⟨rfl, isPlain⟩⟩

/-- All that a node says about symbols, under each of the headings that it is looked at. -/
theorem mem_visit_iff (node : Placed) (aboutSymbol : mark.links = false) :
    mark ∈ visit language kinds node ↔
      (∃ name, mark = .defines name ∧ Introduces kinds node name) ∨
      (∃ name, mark = .calls name ∧ CallsBy kinds node.tree name) ∨
      (∃ name, mark = .usesType name ∧ isTelling name = true ∧
        UsesType language kinds node.tree name) ∨
      ∃ name, mark = .mentions name ∧ isTelling name = true ∧ node.tree.kind = "identifier" ∧
        node.tree.text = name := by
  rw [visit, List.mem_append, List.mem_append, List.mem_append, or_assoc, or_assoc,
    mem_definitionMarks_iff, mem_calledMarks_iff language kinds node.tree aboutSymbol,
    mem_symbols_iff language kinds node.tree aboutSymbol]

end OneNode

/-! ## Facts of a tree -/

section OneTree

variable (language : Language) (kinds : Kinds) (tree : Tree) (name : String)

/-- The marks of all nodes of a tree. -/
def marksOf : List Mark := (Syntax.walk false [⟨[], tree⟩]).flatMap (visit language kinds)

theorem mem_marksOf_iff (mark : Mark) :
    mark ∈ marksOf language kinds tree ↔
      ∃ node, Reaches ⟨[], tree⟩ node ∧ mark ∈ visit language kinds node := by
  simp only [marksOf, List.mem_flatMap, Syntax.mem_walk_iff]

theorem mem_defines_collect_iff :
    name ∈ (collect language kinds tree).defines ↔
      ∃ node, Reaches ⟨[], tree⟩ node ∧ Introduces kinds node name := by
  refine (mem_defines _ (marksOf language kinds tree) name).trans ?_
  rw [mem_marksOf_iff]
  simp [mem_visit_iff language kinds _ (rfl : (Mark.defines name).links = false)]

theorem mem_calls_collect_iff :
    name ∈ (collect language kinds tree).calls ↔
      ∃ node, Reaches ⟨[], tree⟩ node ∧ CallsBy kinds node.tree name := by
  refine (mem_calls _ (marksOf language kinds tree) name).trans ?_
  rw [mem_marksOf_iff]
  simp [mem_visit_iff language kinds _ (rfl : (Mark.calls name).links = false)]

theorem mem_types_collect_iff :
    name ∈ (collect language kinds tree).types ↔
      (isTelling name = true ∧
        ∃ node, Reaches ⟨[], tree⟩ node ∧ UsesType language kinds node.tree name) ∧
      name ∉ (collect language kinds tree).defines := by
  refine (mem_types _ (marksOf language kinds tree) name).trans (and_congr_left fun _ => ?_)
  rw [mem_marksOf_iff]
  simp [mem_visit_iff language kinds _ (rfl : (Mark.usesType name).links = false), and_left_comm]

theorem mem_references_collect_iff :
    name ∈ (collect language kinds tree).references ↔
      (isTelling name = true ∧
        ∃ node, Reaches ⟨[], tree⟩ node ∧ node.tree.kind = "identifier" ∧ node.tree.text = name) ∧
      name ∉ (collect language kinds tree).defines ∧ name ∉ (collect language kinds tree).calls ∧
        name ∉ (collect language kinds tree).types := by
  refine (mem_references _ (marksOf language kinds tree) name).trans (and_congr_left fun _ => ?_)
  rw [mem_marksOf_iff]
  simp only [mem_visit_iff language kinds _ (rfl : (Mark.mentions name).links = false), reduceCtorEq,
    false_and, exists_false, false_or, Mark.mentions.injEq, exists_eq_left', and_left_comm,
    exists_and_left]

end OneTree

/-- No telling identifier is lost, references are told apart from everything else and types
from definitions, names are defined by definitions and by bindings at module level, called, used
as types and mentioned where nodes say so, and the order in which nodes are visited does not
show.  This holds for a tree of any shape and for whatever kinds a grammar may have. -/
theorem collect_files_names (language : Language) (kinds : Kinds) (tree : Tree) :
    let facts := collect language kinds tree
    let root : Placed := ⟨[], tree⟩
    (∀ node, Reaches root node → node.tree.kind = "identifier" →
      2 ≤ node.tree.text.utf8ByteSize → node.tree.text ∉ ["self", "cls", "super", "_"] →
        node.tree.text ∈ facts.defines ∨ node.tree.text ∈ facts.calls ∨
          node.tree.text ∈ facts.types ∨ node.tree.text ∈ facts.references) ∧
    (∀ name ∈ facts.references,
      name ∉ facts.defines ∧ name ∉ facts.calls ∧ name ∉ facts.types) ∧
    (∀ name ∈ facts.types, name ∉ facts.defines) ∧
    (∀ name, name ∈ facts.defines ↔ ∃ node, Reaches root node ∧ Introduces kinds node name) ∧
    (∀ name, name ∈ facts.calls ↔ ∃ node, Reaches root node ∧ CallsBy kinds node.tree name) ∧
    (∀ name, name ∈ facts.types ↔
      (isTelling name = true ∧
        ∃ node, Reaches root node ∧ UsesType language kinds node.tree name) ∧
      name ∉ facts.defines) ∧
    (∀ name, name ∈ facts.references ↔
      (isTelling name = true ∧
        ∃ node, Reaches root node ∧ node.tree.kind = "identifier" ∧ node.tree.text = name) ∧
      name ∉ facts.defines ∧ name ∉ facts.calls ∧ name ∉ facts.types) ∧
    Visits [root] (Syntax.walk false [root]) ∧
    (∀ order, Visits [root] order → ∀ gathered : List Mark,
      (∀ mark, mark ∈ gathered ↔ ∃ node ∈ order, mark ∈ visit language kinds node) →
        factsOf language.hasModules gathered = facts) := by
  intro facts root
  refine ⟨?_, ?_, ?_, ?_, ?_, ?_, ?_, Syntax.visits_walk false [root], ?_⟩
  · intro node reaches isIdentifier long notIgnored
    have telling : isTelling node.tree.text = true := by
      simp only [isTelling, Bool.and_eq_true, decide_eq_true_eq, Bool.not_eq_true',
        List.contains_eq_mem, decide_eq_false_iff_not]
      exact ⟨long, notIgnored⟩
    by_cases isDefined : node.tree.text ∈ facts.defines
    · exact Or.inl isDefined
    by_cases isCalled : node.tree.text ∈ facts.calls
    · exact Or.inr (Or.inl isCalled)
    by_cases isType : node.tree.text ∈ facts.types
    · exact Or.inr (Or.inr (Or.inl isType))
    exact Or.inr (Or.inr (Or.inr ((mem_references_collect_iff language kinds tree _).mpr
      ⟨⟨telling, node, reaches, isIdentifier, rfl⟩, isDefined, isCalled, isType⟩)))
  · exact fun name isReference =>
      ((mem_references_collect_iff language kinds tree name).mp isReference).2
  · exact fun name isType => ((mem_types_collect_iff language kinds tree name).mp isType).2
  · exact mem_defines_collect_iff language kinds tree
  · exact mem_calls_collect_iff language kinds tree
  · exact mem_types_collect_iff language kinds tree
  · exact mem_references_collect_iff language kinds tree
  · intro order visits gathered same
    refine factsOf_congr _ fun mark => ?_
    rw [same, List.mem_flatMap]
    simp only [Syntax.mem_walk_iff, visits.mem_iff, List.mem_singleton, exists_eq_left, root]

/-- A typed rate at the level of the module, which a call gives its value. -/
def rateTree : Tree :=
  let token (text : String) : Syntax.Child := (none, .node text false text [])
  let identifier (name : String) : Tree := .node "identifier" true name []
  let arguments : Tree :=
    .node "arguments" true "(base)" [token "(", (none, identifier "base"), token ")"]
  .node "program" true "const rate: Money = price(base)"
    [(none, .node "lexical_declaration" true "const rate: Money = price(base)" [token "const",
      (none, .node "variable_declarator" true "rate: Money = price(base)"
        [(some "name", identifier "rate"),
         (some "type", .node "type_annotation" true ": Money"
           [token ":", (none, .node "type_identifier" true "Money" [])]),
         token "=",
         (some "value", .node "call_expression" true "price(base)"
           [(some "function", identifier "price"), (some "arguments", arguments)])])])]

theorem marksOf_rateTree :
    marksOf .typescript .typeScript rateTree = [.defines "rate", .mentions "rate",
      .usesType "Money", .calls "price", .mentions "price", .mentions "base"] := by
  decide +kernel

/-- The marks may be gathered in any order, such as from the last one to the first. -/
theorem collect_files_names_of_rate :
    let facts := collect .typescript .typeScript rateTree
    let root : Placed := ⟨[], rateTree⟩
    let name : Placed := ⟨["variable_declarator", "lexical_declaration", "program"],
      .node "identifier" true "rate" []⟩
    (Reaches root name ∧ 2 ≤ "rate".utf8ByteSize ∧ "rate" ∉ ["self", "cls", "super", "_"] ∧
      ("rate" ∈ facts.defines ∨ "rate" ∈ facts.calls ∨ "rate" ∈ facts.types ∨
        "rate" ∈ facts.references)) ∧
    ("base" ∈ facts.references ∧ "base" ∉ facts.defines ∧ "base" ∉ facts.calls ∧
      "base" ∉ facts.types) ∧
    ("Money" ∈ facts.types ∧ "Money" ∉ facts.defines) ∧
    (∃ node, Reaches root node ∧ Introduces .typeScript node "rate") ∧
    (∃ node, Reaches root node ∧ CallsBy .typeScript node.tree "price") ∧
    factsOf true (marksOf .typescript .typeScript rateTree).reverse = facts := by
  intro facts root name
  have ⟨filed, references, types, defines, calls, _, _, visits, anyOrder⟩ :=
    collect_files_names .typescript .typeScript rateTree
  have reaches : Reaches root name := by
    rw [← Syntax.mem_walk_iff false]
    simp [root, name, rateTree, Syntax.walk, Placed.pushed, Placed.children,
      Tree.namedChildren, Tree.children, Tree.named, Tree.kind, List.filter_cons]
  have gathered : facts = factsOf true (marksOf .typescript .typeScript rateTree) := rfl
  have isReference : "base" ∈ facts.references := by
    simp [gathered, mem_references, mem_defines, mem_calls, mem_types, marksOf_rateTree]
  have isType : "Money" ∈ facts.types := by
    simp [gathered, mem_defines, mem_types, marksOf_rateTree]
  have isDefined : "rate" ∈ facts.defines := by simp [gathered, mem_defines, marksOf_rateTree]
  have isCalled : "price" ∈ facts.calls := by simp [gathered, mem_calls, marksOf_rateTree]
  refine ⟨⟨reaches, by decide, by decide, filed name reaches rfl (by decide) (by decide)⟩,
    ⟨isReference, references _ isReference⟩, ⟨isType, types _ isType⟩,
    (defines _).mp isDefined, (calls _).mp isCalled, anyOrder _ visits _ fun mark => ?_⟩
  rw [List.mem_reverse, marksOf, List.mem_flatMap]

end ContextPack.Symbols
