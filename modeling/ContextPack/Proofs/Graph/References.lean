import ContextPack.Graph.References
import ContextPack.Proofs.Data.Tally
import ContextPack.Proofs.Graph.Imports
import ContextPack.Proofs.Graph.Store
import ContextPack.Proofs.Text.Order
import Mathlib.Algebra.BigOperators.Group.Finset.Piecewise
import Mathlib.Algebra.BigOperators.Ring.List
import Std.Data.HashMap.Lemmas

namespace ContextPack
namespace References

/-!
# Reference edges, exactly

What relates one file to another is the set of names through which the first
uses the second.  The tables and tallies by which the edges are found are only
ways to its size: each name of the set is counted once for a file, however
often the facts list it, and the cap applies to each kind before the edge back
is discounted.  The mirrors of all three kinds meet at one key of the graph,
where their weights add up.
-/

/-! ## Providers -/

theorem nodup_places (files : List FactsFile) : (files.zipIdx.map Prod.snd).Nodup := by
  rw [List.zipIdx_map_snd]
  exact List.nodup_range'

/-- The place of a file is noted at each of its names and nowhere else. -/
theorem getD_foldl_insert (place : Nat) (name : String) {names : List String} (nodup : names.Nodup)
    (table : Std.HashMap String (List Nat)) :
    (names.foldl (fun table name => table.insert name (place :: table.getD name [])) table).getD
        name [] =
      if name ∈ names then place :: table.getD name [] else table.getD name [] := by
  induction names generalizing table with
  | nil => exact (if_neg List.not_mem_nil).symm
  | cons first rest inductionHypothesis =>
      rcases List.nodup_cons.mp nodup with ⟨absent, later⟩
      rw [List.foldl_cons, inductionHypothesis later, Std.HashMap.getD_insert]
      by_cases here : first = name
      · subst here
        simp [absent]
      · simp [here, Ne.symm here]

/-- The table lists the places of the files that provide a name, ascending. -/
theorem getD_providers (files : List FactsFile) (name : String) :
    (providers files).getD name [] =
      (files.zipIdx.filter fun (file, _) => decide (name ∈ file.facts.provided)).map Prod.snd := by
  rw [providers]
  induction files.zipIdx with
  | nil => exact Std.HashMap.getD_empty
  | cons first rest inductionHypothesis =>
      rw [List.foldr_cons, getD_foldl_insert _ _ (Text.nodup_distinctSorted _), inductionHypothesis,
        List.filter_cons]
      by_cases provides : name ∈ first.1.facts.provided
      · simp [provides]
      · simp [provides]

/-- How many files provide a name. -/
def providerCount (files : List FactsFile) (name : String) : Nat :=
  files.countP fun file => decide (name ∈ file.facts.provided)

theorem length_getD_providers (files : List FactsFile) (name : String) :
    ((providers files).getD name []).length = providerCount files name := by
  rw [getD_providers, List.length_map, ← List.countP_eq_length_filter, providerCount]
  conv_rhs => rw [← List.zipIdx_map_fst 0 files, List.countP_map]
  rfl

theorem mem_getD_providers {files : List FactsFile} {name : String} {place : Nat} :
    place ∈ (providers files).getD name [] ↔
      ∃ file, files[place]? = some file ∧ name ∈ file.facts.provided := by
  rw [getD_providers]
  simp [List.mem_zipIdx_iff_getElem?]

theorem nodup_getD_providers (files : List FactsFile) (name : String) :
    ((providers files).getD name []).Nodup := by
  rw [getD_providers]
  exact (nodup_places files).sublist (List.filter_sublist.map _)

/-! ## Uses -/

/-- The names of a kind of use: names called or mentioned, and names used as
types. -/
def usedNames (facts : SymbolFacts) : EdgeKind → List String
  | .forwardCall => facts.calls ++ facts.references
  | .forwardType => facts.types
  | _ => []

/-- The names through which one file uses another: the other provides them,
the first one does not, and they are not provided by too many. -/
def connecting (files : List FactsFile) (limit : Nat) (user provider : SymbolFacts)
    (kind : EdgeKind) : Finset String :=
  (usedNames user kind).toFinset.filter fun name =>
    name ∉ user.provided ∧ name ∈ provider.provided ∧ providerCount files name ≤ limit

section Uses

variable {files : List FactsFile} {limit place target : Nat}

theorem nodup_linked (files : List FactsFile) (limit place : Nat) (own : List String)
    (name : String) : (linked (providers files) limit place own name).Nodup := by
  unfold linked
  split
  · exact List.nodup_nil
  · simp only
    split
    · exact List.nodup_nil
    · exact (nodup_getD_providers files name).filter _

theorem mem_linked {own : List String} {name : String} :
    target ∈ linked (providers files) limit place own name ↔
      name ∉ own ∧ providerCount files name ≤ limit ∧ target ≠ place ∧
        ∃ file, files[target]? = some file ∧ name ∈ file.facts.provided := by
  unfold linked
  simp only [length_getD_providers]
  by_cases owned : name ∈ own
  · simp [owned]
  · by_cases common : limit < providerCount files name
    · simp [owned, common]
    · simp [owned, common, mem_getD_providers, not_lt.mp common, and_comm]

/-- A name leads to a file at most once. -/
theorem count_map_linked {user : SymbolFacts} {provider : FactsFile}
    (atTarget : files[target]? = some provider) (other : target ≠ place) (name : String)
    (along : EdgeKind) :
    ((linked (providers files) limit place user.provided name).map
        fun target => (target, along)).count (target, along) =
      if name ∉ user.provided ∧ name ∈ provider.facts.provided ∧ providerCount files name ≤ limit
      then 1 else 0 := by
  have injective : Function.Injective fun target : Nat => (target, along) :=
    fun _ _ same => congrArg Prod.fst same
  rw [List.count_map_of_injective _ _ injective, (nodup_linked files limit place _ name).count]
  refine if_congr ?_ rfl rfl
  rw [mem_linked, atTarget]
  simp only [Option.some.injEq, exists_eq_left', other, ne_eq, not_false_eq_true, true_and]
  exact and_congr_right fun _ => and_comm

/-- Names without repeats lead to a file as often as there are names among
them that connect it. -/
theorem count_flatMap_linked {user : SymbolFacts} {provider : FactsFile}
    (atTarget : files[target]? = some provider) (other : target ≠ place) {names : List String}
    (nodup : names.Nodup) (along kind : EdgeKind) :
    (names.flatMap fun name => (linked (providers files) limit place user.provided name).map
        fun target => (target, along)).count (target, kind) =
      if along = kind then
        (names.toFinset.filter fun name => name ∉ user.provided ∧ name ∈ provider.facts.provided ∧
          providerCount files name ≤ limit).card
      else 0 := by
  split
  · next same =>
      subst same
      rw [List.count_flatMap, Finset.card_filter, List.sum_toFinset _ nodup]
      refine congrArg List.sum (List.map_congr_left fun name _ => ?_)
      exact count_map_linked atTarget other name along
  · next different =>
      refine List.count_eq_zero_of_not_mem fun member => ?_
      rcases List.mem_flatMap.mp member with ⟨name, -, inLinked⟩
      rcases List.mem_map.mp inLinked with ⟨found, -, same⟩
      exact different (congrArg Prod.snd same)

/-- A file uses another as often as there are names that connect them. -/
theorem count_uses {user : SymbolFacts} {provider : FactsFile}
    (atTarget : files[target]? = some provider) (other : target ≠ place) (kind : EdgeKind) :
    (uses (providers files) limit place user).count (target, kind) =
      (connecting files limit user provider.facts kind).card := by
  have calls : (Text.distinctSorted (user.calls ++ user.references)).toFinset =
      (user.calls ++ user.references).toFinset := by
    ext name
    rw [List.mem_toFinset, List.mem_toFinset, Text.mem_distinctSorted]
  have types : (Text.distinctSorted user.types).toFinset = user.types.toFinset := by
    ext name
    rw [List.mem_toFinset, List.mem_toFinset, Text.mem_distinctSorted]
  rw [uses, List.count_append,
    count_flatMap_linked atTarget other (Text.nodup_distinctSorted _),
    count_flatMap_linked atTarget other (Text.nodup_distinctSorted _), calls, types]
  cases kind <;> simp [connecting, usedNames]

end Uses

/-! ## Edges from users to providers -/

section Edges

variable (settings : ReferenceSettings ℚ) (files : List FactsFile)

/-- Edges of a file to those whose names it uses, without the edges back. -/
def useEdges (file : FactsFile) (place : Nat) : List (PathEdge ℚ) :=
  (tally Use.le (uses (providers files) settings.maxDefinitionsPerSymbol place file.facts)).flatMap
    fun ((target, kind), count) =>
      match files[target]? with
      | none => []
      | some other =>
        [⟨file.path, other.path, kind,
          Scalar.ofNat (min count settings.maxSymbolsPerEdge) * settings.symbolWeight⟩]

/-- Edges of a file to those that it imports, without the edges back. -/
def importingEdges (file : FactsFile) : List (PathEdge ℚ) :=
  (Text.distinctSorted (file.facts.imports.filterMap
    (Imports.resolve (files.map FactsFile.path) file.path))).map fun target =>
      ⟨file.path, target, .importing, settings.importWeight⟩

/-- All edges without the edges back. -/
def forwardEdges : List (PathEdge ℚ) :=
  files.zipIdx.flatMap fun (file, place) =>
    useEdges settings files file place ++ importingEdges settings files file

/-- The discounted edge back. -/
def mirror (edge : PathEdge ℚ) : PathEdge ℚ :=
  ⟨edge.target, edge.source, .backwardCall, edge.weight * settings.backwardFactor⟩

/-- The reference edges are the edges to providers, each with its mirror. -/
theorem edges_eq :
    edges settings files =
      .ofList ((forwardEdges settings files).flatMap fun edge => [edge, mirror settings edge]) := by
  rw [edges, forwardEdges, List.flatMap_assoc]
  refine congrArg EdgeBuffer.ofList (List.flatMap_congr fun indexed _ => ?_)
  rcases indexed with ⟨file, place⟩
  rw [List.flatMap_append]
  refine congrArg₂ (· ++ ·) ?_ ?_
  · rw [symbolEdges, useEdges, List.flatMap_assoc]
    refine List.flatMap_congr fun run _ => ?_
    rcases run with ⟨⟨target, kind⟩, count⟩
    simp only [List.getElem?_toArray]
    cases files[target]? with
    | none => rfl
    | some other => rfl
  · rw [importEdges, importingEdges, List.flatMap_map]
    rfl

end Edges

/-! ## Weights of edges to providers -/

/-- The weight of a number of connecting names. -/
def namesWeight (settings : ReferenceSettings ℚ) (count : Nat) : ℚ :=
  (min count settings.maxSymbolsPerEdge : Nat) * settings.symbolWeight

/-- The weight of the uses of a kind, capped before anything else is done with
it. -/
def useWeight (settings : ReferenceSettings ℚ) (files : List FactsFile) (user provider : FactsFile)
    (kind : EdgeKind) : ℚ :=
  namesWeight settings
    (connecting files settings.maxDefinitionsPerSymbol user.facts provider.facts kind).card

/-- The weight of an import, once, however many specifiers resolve to the
file. -/
def importWeight (settings : ReferenceSettings ℚ) (files : List FactsFile)
    (user provider : FactsFile) : ℚ :=
  if ∃ specifier ∈ user.facts.imports,
      Imports.resolve (files.map FactsFile.path) user.path specifier = some provider.path
  then settings.importWeight else 0

theorem namesWeight_zero (settings : ReferenceSettings ℚ) : namesWeight settings 0 = 0 := by
  rw [namesWeight, Nat.zero_min, Nat.cast_zero, zero_mul]

theorem namesWeight_nonneg {settings : ReferenceSettings ℚ}
    (symbolWeight_nonneg : 0 ≤ settings.symbolWeight) (count : Nat) :
    0 ≤ namesWeight settings count :=
  mul_nonneg (Nat.cast_nonneg _) symbolWeight_nonneg

theorem isSortingTest_useLe : IsSortingTest Use.le where
  trans a b c first second := by
    simp only [Use.le, Bool.or_eq_true, Bool.and_eq_true, decide_eq_true_eq, beq_iff_eq] at *
    omega
  total a b := by
    simp only [Use.le, Bool.or_eq_true, Bool.and_eq_true, decide_eq_true_eq, beq_iff_eq]
    omega
  antisymm a b first second := by
    simp only [Use.le, Bool.or_eq_true, Bool.and_eq_true, decide_eq_true_eq, beq_iff_eq] at *
    exact Prod.ext (by omega) (EdgeKind.place_injective (by omega))

/-- What every edge from a file to a provider satisfies. -/
structure IsForward (files : List FactsFile) (source : String) (edge : PathEdge ℚ) : Prop where
  source_eq : edge.source = source
  target_mem : edge.target ∈ files.map FactsFile.path
  kind_eq : edge.kind = .forwardCall ∨ edge.kind = .forwardType ∨ edge.kind = .importing
  weight_nonneg : 0 ≤ edge.weight

section Weights

variable {settings : ReferenceSettings ℚ} {files : List FactsFile}

theorem kind_of_mem_uses {limit place : Nat} {user : SymbolFacts} {use : Use}
    (member : use ∈ uses (providers files) limit place user) :
    use.2 = .forwardCall ∨ use.2 = .forwardType := by
  rcases List.mem_append.mp member with called | typed
  · rcases List.mem_flatMap.mp called with ⟨name, -, inLinked⟩
    rcases List.mem_map.mp inLinked with ⟨found, -, rfl⟩
    exact Or.inl rfl
  · rcases List.mem_flatMap.mp typed with ⟨name, -, inLinked⟩
    rcases List.mem_map.mp inLinked with ⟨found, -, rfl⟩
    exact Or.inr rfl

theorem isForward_of_mem_useEdges (symbolWeight_nonneg : 0 ≤ settings.symbolWeight)
    {file : FactsFile} {place : Nat} {edge : PathEdge ℚ}
    (member : edge ∈ useEdges settings files file place) : IsForward files file.path edge := by
  rcases List.mem_flatMap.mp member with ⟨⟨⟨target, kind⟩, count⟩, inTally, inEdges⟩
  have isUse := (mem_map_fst_tally Use.le _ _).mp (List.mem_map_of_mem inTally)
  cases found : files[target]? with
  | none =>
      simp only [found, List.not_mem_nil] at inEdges
  | some other =>
      simp only [found, List.mem_singleton] at inEdges
      subst inEdges
      refine ⟨rfl, List.mem_map_of_mem (List.mem_of_getElem? found), ?_, ?_⟩
      · exact (kind_of_mem_uses isUse).imp_right Or.inl
      · exact mul_nonneg (Nat.cast_nonneg _) symbolWeight_nonneg

theorem isForward_of_mem_importingEdges (importWeight_nonneg : 0 ≤ settings.importWeight)
    {file : FactsFile} {edge : PathEdge ℚ} (member : edge ∈ importingEdges settings files file) :
    IsForward files file.path edge := by
  rcases List.mem_map.mp member with ⟨target, isTarget, rfl⟩
  rcases List.mem_filterMap.mp ((Text.mem_distinctSorted _ _).mp isTarget) with
    ⟨specifier, -, resolved⟩
  exact ⟨rfl, (Imports.resolve_mem resolved).1, Or.inr (Or.inr rfl), importWeight_nonneg⟩

/-- Files with distinct paths are told apart by them. -/
theorem place_eq_of_path_eq (distinct : (files.map FactsFile.path).Nodup) {first second : Nat}
    {a b : FactsFile} (atFirst : files[first]? = some a) (atSecond : files[second]? = some b)
    (same : a.path = b.path) : first = second := by
  have inside : first < (files.map FactsFile.path).length := by
    rw [List.length_map]
    exact (List.getElem?_eq_some_iff.mp atFirst).1
  refine (List.getElem?_inj inside distinct).mp ?_
  rw [List.getElem?_map, List.getElem?_map, atFirst, atSecond, Option.map_some, Option.map_some, same]

section Pair

variable {user provider : FactsFile} {place target : Nat}

theorem sum_contribution_useEdges (symbolWeight_nonneg : 0 ≤ settings.symbolWeight)
    (distinct : (files.map FactsFile.path).Nodup) (atPlace : files[place]? = some user)
    (atTarget : files[target]? = some provider) (other : target ≠ place) (kind : EdgeKind) :
    ((useEdges settings files user place).map
        (Graph.contribution user.path provider.path kind)).sum =
      useWeight settings files user provider kind := by
  have different : user.path ≠ provider.path :=
    fun same => other (place_eq_of_path_eq distinct atPlace atTarget same).symm
  rw [useWeight, ← count_uses atTarget other, useEdges, sum_map_flatMap,
    ← sum_tally isSortingTest_useLe _ (target, kind) (namesWeight settings)
      (namesWeight_zero settings)]
  refine congrArg List.sum (List.map_congr_left fun run _ => ?_)
  rcases run with ⟨⟨found, along⟩, count⟩
  cases atFound : files[found]? with
  | none =>
      simp only [atFound]
      refine (if_neg fun same => ?_).symm
      cases same
      cases atTarget.symm.trans atFound
  | some file =>
      simp only [atFound]
      have nonneg := namesWeight_nonneg symbolWeight_nonneg count
      have samePath : file.path = provider.path ↔ found = target := by
        refine ⟨place_eq_of_path_eq distinct atFound atTarget, ?_⟩
        rintro rfl
        rw [Option.some.inj (atFound.symm.trans atTarget)]
      rw [List.map_singleton, List.sum_singleton, Graph.contribution_eq different kind nonneg]
      refine if_congr ?_ rfl rfl
      rw [Prod.mk.injEq, samePath]
      exact and_iff_right rfl

theorem sum_contribution_importingEdges (importWeight_nonneg : 0 ≤ settings.importWeight)
    (different : user.path ≠ provider.path) (kind : EdgeKind) :
    ((importingEdges settings files user).map
        (Graph.contribution user.path provider.path kind)).sum =
      if kind = .importing then importWeight settings files user provider else 0 := by
  rw [importingEdges, List.map_map]
  have counted (path : String) : (Graph.contribution user.path provider.path kind ∘ fun target =>
      ⟨user.path, target, .importing, settings.importWeight⟩) path =
        if path = provider.path ∧ kind = .importing then settings.importWeight else 0 := by
    refine (Graph.contribution_eq different kind importWeight_nonneg).trans (if_congr ?_ rfl rfl)
    exact (and_iff_right rfl).trans (and_congr_right fun _ => eq_comm)
  rw [List.map_congr_left fun path _ => counted path]
  have resolves : provider.path ∈ Text.distinctSorted (user.facts.imports.filterMap
      (Imports.resolve (files.map FactsFile.path) user.path)) ↔
        ∃ specifier ∈ user.facts.imports,
          Imports.resolve (files.map FactsFile.path) user.path specifier = some provider.path := by
    rw [Text.mem_distinctSorted, List.mem_filterMap]
  by_cases imported : kind = .importing ∧ ∃ specifier ∈ user.facts.imports,
      Imports.resolve (files.map FactsFile.path) user.path specifier = some provider.path
  · rcases imported with ⟨rfl, isResolved⟩
    rw [if_pos rfl, importWeight, if_pos isResolved]
    rw [sum_map_eq_of_unique (Text.nodup_distinctSorted _) (resolves.mpr isResolved)]
    · exact if_pos ⟨rfl, rfl⟩
    · exact fun path _ otherPath => if_neg fun same => otherPath same.1
  · have nothing : (if kind = .importing then importWeight settings files user provider else 0) = 0 := by
      split
      · next isImporting => exact if_neg fun isResolved => imported ⟨isImporting, isResolved⟩
      · rfl
    rw [nothing]
    refine List.sum_eq_zero fun share member => ?_
    rcases List.mem_map.mp member with ⟨path, isTarget, rfl⟩
    refine if_neg ?_
    rintro ⟨rfl, rfl⟩
    exact imported ⟨rfl, resolves.mp isTarget⟩

/-- All edges of a file to another one, whatever it is that relates them. -/
theorem sum_contribution_forwardEdges (symbolWeight_nonneg : 0 ≤ settings.symbolWeight)
    (importWeight_nonneg : 0 ≤ settings.importWeight)
    (distinct : (files.map FactsFile.path).Nodup) (atPlace : files[place]? = some user)
    (atTarget : files[target]? = some provider) (other : target ≠ place) (kind : EdgeKind) :
    ((forwardEdges settings files).map (Graph.contribution user.path provider.path kind)).sum =
      useWeight settings files user provider kind +
        if kind = .importing then importWeight settings files user provider else 0 := by
  have different : user.path ≠ provider.path :=
    fun same => other (place_eq_of_path_eq distinct atPlace atTarget same).symm
  have inside : (user, place) ∈ files.zipIdx := List.mem_zipIdx_iff_getElem?.mpr atPlace
  rw [forwardEdges, sum_map_flatMap, sum_map_eq_of_unique (nodup_places files).of_map inside]
  · rw [List.map_append, List.sum_append, sum_contribution_useEdges symbolWeight_nonneg distinct
      atPlace atTarget other, sum_contribution_importingEdges importWeight_nonneg different]
  · rintro ⟨file, filePlace⟩ isIndexed otherFile
    refine List.sum_eq_zero fun share member => ?_
    rcases List.mem_map.mp member with ⟨edge, isEdge, rfl⟩
    have forward : IsForward files file.path edge := by
      rcases List.mem_append.mp isEdge with isUse | isImport
      · exact isForward_of_mem_useEdges symbolWeight_nonneg isUse
      · exact isForward_of_mem_importingEdges importWeight_nonneg isImport
    refine if_neg fun counts => otherFile ?_
    have atFile : files[filePlace]? = some file := List.mem_zipIdx_iff_getElem?.mp isIndexed
    have samePlace : filePlace = place :=
      place_eq_of_path_eq distinct atFile atPlace (forward.source_eq.symm.trans counts.1)
    rw [samePlace] at atFile ⊢
    rw [Option.some.inj (atFile.symm.trans atPlace)]

end Pair

theorem isForward_of_mem_forwardEdges (symbolWeight_nonneg : 0 ≤ settings.symbolWeight)
    (importWeight_nonneg : 0 ≤ settings.importWeight) {edge : PathEdge ℚ}
    (member : edge ∈ forwardEdges settings files) : ∃ file ∈ files, IsForward files file.path edge := by
  rcases List.mem_flatMap.mp member with ⟨⟨file, place⟩, isIndexed, isEdge⟩
  refine ⟨file, List.mem_of_getElem? (List.mem_zipIdx_iff_getElem?.mp isIndexed), ?_⟩
  rcases List.mem_append.mp isEdge with isUse | isImport
  · exact isForward_of_mem_useEdges symbolWeight_nonneg isUse
  · exact isForward_of_mem_importingEdges importWeight_nonneg isImport

/-! ## Edges back -/

/-- A mirror counts at the one kind that all edges back share, with the
discount. -/
theorem contribution_mirror (backwardFactor_nonneg : 0 ≤ settings.backwardFactor)
    {source target file : String} (different : source ≠ target) (kind : EdgeKind)
    {edge : PathEdge ℚ} (forward : IsForward files file edge) :
    Graph.contribution source target kind (mirror settings edge) =
      if kind = .backwardCall then
        settings.backwardFactor * (Graph.contribution target source .forwardCall edge +
          Graph.contribution target source .forwardType edge +
          Graph.contribution target source .importing edge)
      else 0 := by
  have nonneg := forward.weight_nonneg
  have discounted : 0 ≤ (mirror settings edge).weight := mul_nonneg nonneg backwardFactor_nonneg
  rw [Graph.contribution_eq different kind discounted, Graph.contribution_eq different.symm _ nonneg,
    Graph.contribution_eq different.symm _ nonneg, Graph.contribution_eq different.symm _ nonneg]
  by_cases ends : edge.source = target ∧ edge.target = source
  · rcases ends with ⟨rfl, rfl⟩
    rcases forward.kind_eq with isKind | isKind | isKind <;>
      simp [mirror, isKind, eq_comm, mul_comm]
  · have outside (along : EdgeKind) :
        ¬(edge.source = target ∧ edge.target = source ∧ edge.kind = along) :=
      fun counts => ends ⟨counts.1, counts.2.1⟩
    rw [if_neg (outside _), if_neg (outside _), if_neg (outside _), add_zero, add_zero, mul_zero,
      ite_self]
    exact if_neg fun counts => ends ⟨counts.2.1, counts.1⟩

theorem sum_contribution_mirror (backwardFactor_nonneg : 0 ≤ settings.backwardFactor)
    {source target : String} (different : source ≠ target) (kind : EdgeKind)
    {edges : List (PathEdge ℚ)} (forward : ∀ edge ∈ edges, ∃ file, IsForward files file edge) :
    (edges.map fun edge => Graph.contribution source target kind (mirror settings edge)).sum =
      if kind = .backwardCall then
        settings.backwardFactor *
          ((edges.map (Graph.contribution target source .forwardCall)).sum +
            (edges.map (Graph.contribution target source .forwardType)).sum +
            (edges.map (Graph.contribution target source .importing)).sum)
      else 0 := by
  rw [List.map_congr_left fun edge member => contribution_mirror backwardFactor_nonneg different
    kind (forward edge member).choose_spec]
  split
  · rw [List.sum_map_mul_left, List.sum_map_add, List.sum_map_add]
  · exact List.sum_map_zero

end Weights

/-! ## The graph of reference edges -/

/-- What reference edges of a kind from one file to another weigh together. -/
def exactWeight (settings : ReferenceSettings ℚ) (files : List FactsFile)
    (source target : FactsFile) : EdgeKind → ℚ
  | .forwardCall => useWeight settings files source target .forwardCall
  | .forwardType => useWeight settings files source target .forwardType
  | .importing => importWeight settings files source target
  | .backwardCall =>
    settings.backwardFactor * (useWeight settings files target source .forwardCall +
      useWeight settings files target source .forwardType +
      importWeight settings files target source)
  | .lexical | .cochange | .sibling => 0

section Graph

variable {settings : ReferenceSettings ℚ} {files : List FactsFile}

theorem weightBetween_edges (symbolWeight_nonneg : 0 ≤ settings.symbolWeight)
    (importWeight_nonneg : 0 ≤ settings.importWeight)
    (backwardFactor_nonneg : 0 ≤ settings.backwardFactor)
    (distinct : (files.map FactsFile.path).Nodup) {source target : FactsFile}
    (isSource : source ∈ files) (isTarget : target ∈ files) (different : source.path ≠ target.path)
    (kind : EdgeKind) :
    (Graph.empty.merge (edges settings files)).weightBetween source.path target.path kind =
      exactWeight settings files source target kind := by
  rcases List.getElem?_of_mem isSource with ⟨first, atFirst⟩
  rcases List.getElem?_of_mem isTarget with ⟨second, atSecond⟩
  have apart : second ≠ first := by
    rintro rfl
    exact different (congrArg FactsFile.path (Option.some.inj (atFirst.symm.trans atSecond)))
  have onward := sum_contribution_forwardEdges symbolWeight_nonneg importWeight_nonneg distinct
    atFirst atSecond apart
  have back := sum_contribution_forwardEdges symbolWeight_nonneg importWeight_nonneg distinct
    atSecond atFirst apart.symm
  have forward (edge) (member : edge ∈ forwardEdges settings files) :
      ∃ file, IsForward files file edge := by
    rcases isForward_of_mem_forwardEdges symbolWeight_nonneg importWeight_nonneg member with
      ⟨file, -, isForward⟩
    exact ⟨file.path, isForward⟩
  rw [Graph.wellFormed_empty.weightBetween_merge, Graph.weightBetween_empty, zero_add, edges_eq,
    Graph.sum_contribution_ofList, sum_map_flatMap]
  simp only [List.map_cons, List.map_nil, List.sum_cons, List.sum_nil, add_zero]
  rw [List.sum_map_add, onward, sum_contribution_mirror backwardFactor_nonneg different kind forward,
    back, back, back]
  cases kind <;> simp [exactWeight, useWeight, connecting, usedNames, namesWeight_zero]

/-- Every edge joins two different files. -/
theorem ends_of_mem_edges (symbolWeight_nonneg : 0 ≤ settings.symbolWeight)
    (importWeight_nonneg : 0 ≤ settings.importWeight) {edge : EdgeKey × ℚ}
    (member : edge ∈ (Graph.empty.merge (edges settings files)).edges) :
    ∃ source ∈ files, ∃ target ∈ files, source.path ≠ target.path ∧
      (Graph.empty.merge (edges settings files)).path? edge.1.source = some source.path ∧
      (Graph.empty.merge (edges settings files)).path? edge.1.target = some target.path := by
  rcases Graph.exists_of_mem_merge_empty member with
    ⟨taken, isTaken, different, -, sourceStands, targetStands⟩
  rw [edges_eq] at isTaken
  rcases List.mem_flatMap.mp (List.mem_filter.mp isTaken).1 with ⟨origin, isOrigin, isPair⟩
  rcases isForward_of_mem_forwardEdges symbolWeight_nonneg importWeight_nonneg isOrigin with
    ⟨user, isUser, forward⟩
  rcases List.mem_map.mp forward.target_mem with ⟨provider, isProvider, providerPath⟩
  rw [List.mem_pair] at isPair
  rcases isPair with rfl | rfl
  · rw [forward.source_eq, ← providerPath] at different
    rw [forward.source_eq] at sourceStands
    rw [← providerPath] at targetStands
    exact ⟨user, isUser, provider, isProvider, different, sourceStands, targetStands⟩
  · simp only [mirror, forward.source_eq, ← providerPath] at different sourceStands targetStands
    exact ⟨provider, isProvider, user, isUser, different, sourceStands, targetStands⟩

/-- Merged into an empty graph, the reference edges relate exactly the files
that use or import each other, with exactly the weight of what relates them.
An edge without weight is none. -/
theorem merge_edges_exact (symbolWeight_nonneg : 0 ≤ settings.symbolWeight)
    (importWeight_nonneg : 0 ≤ settings.importWeight)
    (backwardFactor_nonneg : 0 ≤ settings.backwardFactor)
    (distinct : (files.map FactsFile.path).Nodup) :
    let graph := Graph.empty.merge (edges settings files)
    (∀ source ∈ files, ∀ target ∈ files, source.path ≠ target.path → ∀ kind,
      graph.weightBetween? source.path target.path kind =
        if exactWeight settings files source target kind = 0 then none
        else some (exactWeight settings files source target kind)) ∧
    ∀ edge ∈ graph.edges, ∃ source ∈ files, ∃ target ∈ files, source.path ≠ target.path ∧
      graph.path? edge.1.source = some source.path ∧
      graph.path? edge.1.target = some target.path := by
  refine ⟨fun source isSource target isTarget different kind => ?_, fun edge member => ?_⟩
  · rw [(Graph.wellFormed_empty.merge _).weightBetween?_eq,
      weightBetween_edges symbolWeight_nonneg importWeight_nonneg backwardFactor_nonneg distinct
        isSource isTarget different]
  · exact ends_of_mem_edges symbolWeight_nonneg importWeight_nonneg member

/-- A file that calls two names of another, names a third as a type and
imports the file. -/
def sampleUser : FactsFile :=
  ⟨"shop.js", ⟨["bill"], ["rate"], ["tax", "rate"], ["Money"], some ⟨["./tax"], []⟩⟩⟩

/-- A file that exports one of the names that it offers. -/
def sampleProvider : FactsFile :=
  ⟨"tax.js", ⟨["tax", "rate"], [], [], [], some ⟨[], ["Money"]⟩⟩⟩

/-- With the default weights two called names weigh a half, and the edge back
has seven tenths of all three kinds together. -/
theorem merge_edges_exact_of_sample :
    let settings : ReferenceSettings ℚ := .default
    let graph := Graph.empty.merge (edges settings [sampleUser, sampleProvider])
    (0 ≤ settings.symbolWeight ∧ 0 ≤ settings.importWeight ∧ 0 ≤ settings.backwardFactor ∧
      ([sampleUser, sampleProvider].map FactsFile.path).Nodup) ∧
    graph.weightBetween? "shop.js" "tax.js" .forwardCall = some (1 / 2) ∧
    graph.weightBetween? "tax.js" "shop.js" .backwardCall = some (49 / 40) ∧
    graph.weightBetween? "tax.js" "shop.js" .forwardCall = none := by
  have symbolWeight : 0 ≤ (ReferenceSettings.default : ReferenceSettings ℚ).symbolWeight := by
    norm_num [ReferenceSettings.default]
  have importing : 0 ≤ (ReferenceSettings.default : ReferenceSettings ℚ).importWeight := by
    norm_num [ReferenceSettings.default]
  have backwardFactor : 0 ≤ (ReferenceSettings.default : ReferenceSettings ℚ).backwardFactor := by
    norm_num [ReferenceSettings.default]
  have distinct : ([sampleUser, sampleProvider].map FactsFile.path).Nodup := by decide
  have exact := (merge_edges_exact symbolWeight importing backwardFactor distinct).1
  have forward := exact sampleUser List.mem_cons_self sampleProvider
    (List.mem_cons_of_mem _ List.mem_cons_self) (by decide)
  have back := exact sampleProvider (List.mem_cons_of_mem _ List.mem_cons_self) sampleUser
    List.mem_cons_self (by decide)
  have calls : useWeight (.default : ReferenceSettings ℚ) [sampleUser, sampleProvider] sampleUser
      sampleProvider .forwardCall = 1 / 2 := by
    have names : (connecting [sampleUser, sampleProvider] 8 sampleUser.facts sampleProvider.facts
        .forwardCall).card = 2 := by decide +kernel
    rw [useWeight, ReferenceSettings.default, names]
    norm_num [namesWeight]
  have types : useWeight (.default : ReferenceSettings ℚ) [sampleUser, sampleProvider] sampleUser
      sampleProvider .forwardType = 1 / 4 := by
    have names : (connecting [sampleUser, sampleProvider] 8 sampleUser.facts sampleProvider.facts
        .forwardType).card = 1 := by decide +kernel
    rw [useWeight, ReferenceSettings.default, names]
    norm_num [namesWeight]
  have unused : useWeight (.default : ReferenceSettings ℚ) [sampleUser, sampleProvider]
      sampleProvider sampleUser .forwardCall = 0 := by
    have names : (connecting [sampleUser, sampleProvider] 8 sampleProvider.facts sampleUser.facts
        .forwardCall).card = 0 := by decide +kernel
    rw [useWeight, ReferenceSettings.default, names, namesWeight_zero]
  have imported : importWeight (.default : ReferenceSettings ℚ) [sampleUser, sampleProvider]
      sampleUser sampleProvider = 1 := by
    have resolves : ∃ specifier ∈ sampleUser.facts.imports,
        Imports.resolve ([sampleUser, sampleProvider].map FactsFile.path) sampleUser.path
          specifier = some sampleProvider.path := by decide +kernel
    rw [importWeight, if_pos resolves, ReferenceSettings.default, Scalar.ofNat_rat, Nat.cast_one]
  have mirrored : exactWeight (.default : ReferenceSettings ℚ) [sampleUser, sampleProvider]
      sampleProvider sampleUser .backwardCall = 49 / 40 := by
    rw [exactWeight, calls, types, imported, ReferenceSettings.default]
    norm_num
  refine ⟨⟨symbolWeight, importing, backwardFactor, distinct⟩, ?_, ?_, ?_⟩
  · refine (forward .forwardCall).trans ?_
    rw [exactWeight, calls, if_neg (by norm_num)]
  · refine (back .backwardCall).trans ?_
    rw [mirrored, if_neg (by norm_num)]
  · exact (back .forwardCall).trans (if_pos unused)

end Graph

end References
end ContextPack
