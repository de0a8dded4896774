import ContextPack.Proofs.Files.Listing
import ContextPack.Proofs.Graph.Runs
import ContextPack.Proofs.Number.Exact
import ContextPack.Sibling

namespace ContextPack.Sibling

/-!
# Sibling expansion by directory

Seeds are taken one by one, and what a directory contributes is kept from its first seed
on.  It depends on the seeds as a whole and not on that first one, so in the end every seed
is linked to what its own directory contributes.
-/

variable {α : Type} [Scalar α] {settings : SiblingSettings α}

/-! ## Taking the seeds one by one -/

/-- The links of a seed to other files. -/
def linksOf (settings : SiblingSettings α) (seed : String) (others : List String) :
    List (PathEdge α) :=
  others.map fun other => ⟨seed, other, .sibling, settings.edgeWeight⟩

namespace Progress

/-- What is kept of a directory is what it contributes. -/
def IsSound (contribution : String → List String) (progress : Progress α) : Prop :=
  ∀ directory others, progress.known.lookup directory = some others →
    others = contribution directory

variable {contribution : String → List String} {progress : Progress α}

omit [Scalar α] in
theorem isSound_start : (start : Progress α).IsSound contribution := nofun

/-- A step links the seed to what its directory contributes, first seed or not. -/
theorem IsSound.link (sound : progress.IsSound contribution) (settings : SiblingSettings α)
    (seed : String) :
    let after := progress.link settings contribution seed
    let others := contribution (Path.parent seed)
    after.IsSound contribution ∧ after.linked = progress.linked ++ others ∧
      after.edges = progress.edges.append (.ofList (linksOf settings seed others)) := by
  dsimp only
  rw [Progress.link]
  cases isKnown : progress.known.lookup (Path.parent seed) with
  | some others =>
      have same := sound _ _ isKnown
      subst same
      exact ⟨sound, rfl, rfl⟩
  | none =>
      refine ⟨fun directory others found => ?_, rfl, rfl⟩
      rw [List.lookup_cons] at found
      split at found
      · next isOwn =>
          cases found
          rw [eq_of_beq isOwn]
      · exact sound directory others found

/-- A run links every seed to what its own directory contributes. -/
theorem IsSound.foldl_link (sound : progress.IsSound contribution)
    (settings : SiblingSettings α) (seeds : List String) :
    let after := seeds.foldl (Progress.link settings contribution) progress
    after.linked = progress.linked ++ seeds.flatMap (contribution ∘ Path.parent) ∧
      after.edges = progress.edges.append (.ofList <| seeds.flatMap fun seed =>
        linksOf settings seed (contribution (Path.parent seed))) := by
  induction seeds generalizing progress with
  | nil => simp [EdgeBuffer.append, EdgeBuffer.ofList]
  | cons seed seeds inductionHypothesis =>
      rcases sound.link settings seed with ⟨soundAfter, linked, edges⟩
      rcases inductionHypothesis soundAfter with ⟨linkedAfter, edgesAfter⟩
      refine ⟨?_, ?_⟩
      · rw [List.foldl_cons, linkedAfter, linked, List.flatMap_cons, List.append_assoc]
        rfl
      · rw [List.foldl_cons, edgesAfter, edges, List.flatMap_cons, EdgeBuffer.ofList_append]
        simp only [EdgeBuffer.append, List.append_assoc]

end Progress

/-- The files that the directories of the seeds contribute, each directory looked at on its
own. -/
theorem edges_eq (settings : SiblingSettings α) (listing : String → List String)
    (seeds candidates : List String) :
    let driven := seeds.filter (isConventional settings)
    let share directory := members settings seeds candidates (listing directory)
    edges settings listing seeds candidates =
      ⟨.ofList (driven.flatMap fun seed => linksOf settings seed (share (Path.parent seed))),
        Text.distinctSorted (driven.flatMap (share ∘ Path.parent))⟩ := by
  intro driven share
  have sound : (Progress.start : Progress α).IsSound share := Progress.isSound_start
  rcases sound.foldl_link settings driven with ⟨linked, edges⟩
  rw [Sibling.edges, edges, linked]
  rfl

/-! ## What a directory contributes -/

variable {workspace : Workspace} {seeds candidates : List String} {directory path : String}

/-- Of the files directly in a directory, by name, the candidates that are no seeds and go by
convention, as many as one directory may have. -/
def Contributes (workspace : Workspace) (settings : SiblingSettings α)
    (seeds candidates : List String) (directory : String) (paths : List String) : Prop :=
  ∃ names, workspace.IsListing directory names ∧
    paths = ((names.map (Workspace.pathIn directory)).filter fun path =>
      path ∉ seeds ∧ path ∈ candidates ∧ isConventional settings path = true).take
        settings.maxFilesPerDirectory

omit [Scalar α] in
theorem contributes_members (settings : SiblingSettings α) (seeds candidates : List String)
    (distinct : workspace.IsDistinct directory) :
    Contributes workspace settings seeds candidates directory
      (members settings seeds candidates (workspace.filesIn directory)) := by
  rcases Workspace.exists_isListing distinct with ⟨names, isListing, filesIn_eq⟩
  refine ⟨names, isListing, ?_⟩
  rw [members, filesIn_eq]
  refine congrArg _ (List.filter_congr fun path _ => ?_)
  simp [Bool.and_assoc]

namespace Contributes

variable {paths : List String}

section

omit [Scalar α]

theorem length_le (contributes : Contributes workspace settings seeds candidates directory paths) :
    paths.length ≤ settings.maxFilesPerDirectory := by
  rcases contributes with ⟨names, -, rfl⟩
  exact List.length_take_le _ _

theorem exists_name (contributes : Contributes workspace settings seeds candidates directory paths)
    (isShare : path ∈ paths) :
    path ∉ seeds ∧ ∃ name, workspace.HasFile directory name ∧
      path = Workspace.pathIn directory name := by
  rcases contributes with ⟨names, isListing, rfl⟩
  rcases List.mem_filter.mp (List.mem_of_mem_take isShare) with ⟨isPath, fits⟩
  rcases List.mem_map.mp isPath with ⟨name, isName, rfl⟩
  exact ⟨(of_decide_eq_true fits).1, name, (isListing.mem_iff name).mp isName, rfl⟩

theorem parent_eq (contributes : Contributes workspace settings seeds candidates directory paths)
    (plain : workspace.IsPlain directory) (isShare : path ∈ paths) :
    Path.parent path = directory := by
  rcases contributes.exists_name isShare with ⟨-, name, hasFile, rfl⟩
  exact plain.parent_pathIn hasFile

theorem nodup (contributes : Contributes workspace settings seeds candidates directory paths)
    (plain : workspace.IsPlain directory) : paths.Nodup := by
  rcases contributes with ⟨names, isListing, rfl⟩
  have distinct : names.Nodup := isListing.ascending.imp ne_of_lt
  have paths_nodup : (names.map (Workspace.pathIn directory)).Nodup :=
    distinct.map_on fun name isName other isOther =>
      plain.name_eq ((isListing.mem_iff name).mp isName) ((isListing.mem_iff other).mp isOther)
  exact (paths_nodup.filter _).sublist (List.take_sublist _ _)

end

end Contributes

/-! ## The outcome -/

section Links

variable {driven : List String} {share : String → List String}

omit [Scalar α] in
theorem mem_links_iff (edge : PathEdge α) :
    edge ∈ driven.flatMap (fun seed => linksOf settings seed (share (Path.parent seed))) ↔
      ∃ seed ∈ driven, ∃ path ∈ share (Path.parent seed),
        edge = ⟨seed, path, .sibling, settings.edgeWeight⟩ := by
  simp only [List.mem_flatMap, linksOf, List.mem_map, eq_comm]

/-- A buffer takes all these links if none leads to a seed, or none for the sake of their
weight. -/
theorem ofList_links (others : ∀ seed ∈ driven, seed ∉ share (Path.parent seed)) :
    (EdgeBuffer.ofList (driven.flatMap fun seed =>
        linksOf settings seed (share (Path.parent seed)))).edges =
      if isEdgeWeight settings.edgeWeight then
        driven.flatMap fun seed => linksOf settings seed (share (Path.parent seed))
      else [] := by
  rw [EdgeBuffer.ofList]
  split
  · next proper =>
      refine List.filter_eq_self.mpr fun edge isLink => ?_
      rcases (mem_links_iff edge).mp isLink with ⟨seed, isDriven, path, isShare, rfl⟩
      have different : seed ≠ path := fun same => others seed isDriven (same ▸ isShare)
      simp [different, proper]
  · next improper =>
      refine List.filter_eq_nil_iff.mpr fun edge isLink => ?_
      rcases (mem_links_iff edge).mp isLink with ⟨seed, isDriven, path, isShare, rfl⟩
      simp [improper]

omit [Scalar α] in
theorem nodup_links (distinct : driven.Nodup)
    (shares : ∀ seed ∈ driven, (share (Path.parent seed)).Nodup) :
    (driven.flatMap fun seed => linksOf settings seed (share (Path.parent seed))).Nodup := by
  refine List.nodup_flatMap.mpr ⟨fun seed isDriven => ?_, ?_⟩
  · exact (shares seed isDriven).map fun path other same => congrArg PathEdge.target same
  · refine distinct.imp fun {seed other} different edge isLink isOther => different ?_
    rcases List.mem_map.mp isLink with ⟨path, -, rfl⟩
    rcases List.mem_map.mp isOther with ⟨path', -, same⟩
    exact (congrArg PathEdge.source same).symm

end Links

/-! ## Shares that lie in their directories -/

section Shares

variable {driven paths : List String} {share : String → List String} {limit : Nat}
  (mem_paths_iff : ∀ path, path ∈ paths ↔ ∃ seed ∈ driven, path ∈ share (Path.parent seed))
  (parent_eq : ∀ seed ∈ driven, ∀ path ∈ share (Path.parent seed),
    Path.parent path = Path.parent seed)

include mem_paths_iff parent_eq

/-- A path of a directory is contributed by it, whichever seed brought the directory in. -/
theorem mem_share_iff {seed : String} (isDriven : seed ∈ driven) (path : String) :
    path ∈ share (Path.parent seed) ↔ path ∈ paths ∧ Path.parent path = Path.parent seed := by
  constructor
  · exact fun isShare =>
      ⟨(mem_paths_iff path).mpr ⟨seed, isDriven, isShare⟩, parent_eq seed isDriven path isShare⟩
  · rintro ⟨isPath, isOwn⟩
    rcases (mem_paths_iff path).mp isPath with ⟨other, isOther, isShare⟩
    rwa [← isOwn, parent_eq other isOther path isShare]

theorem length_filter_parent_le (distinct : paths.Nodup)
    (length_le : ∀ seed ∈ driven, (share (Path.parent seed)).length ≤ limit) (directory : String) :
    (paths.filter fun path => Path.parent path = directory).length ≤ limit := by
  by_cases isMet : ∃ seed ∈ driven, Path.parent seed = directory
  · rcases isMet with ⟨seed, isDriven, rfl⟩
    refine ((distinct.filter _).subperm fun path isOwn => ?_).length_le.trans
      (length_le seed isDriven)
    rcases List.mem_filter.mp isOwn with ⟨isPath, isOwn⟩
    exact (mem_share_iff mem_paths_iff parent_eq isDriven path).mpr
      ⟨isPath, of_decide_eq_true isOwn⟩
  · have none : (paths.filter fun path => Path.parent path = directory) = [] := by
      refine List.filter_eq_nil_iff.mpr fun path isPath isOwn => isMet ?_
      rcases (mem_paths_iff path).mp isPath with ⟨seed, isDriven, isShare⟩
      exact ⟨seed, isDriven,
        (parent_eq seed isDriven path isShare).symm.trans (of_decide_eq_true isOwn)⟩
    rw [none]
    exact Nat.zero_le _

end Shares

/-- Every seed that goes by convention is linked to what its directory contributes, if the
weight makes an edge, and that is what becomes eligible.  Where names are plain, the directory
of a path says who contributed it, and every link stands once. -/
theorem edges_follow_directories (workspace : Workspace) (settings : SiblingSettings α)
    (seeds candidates : List String) (distinctSeeds : seeds.Nodup)
    (distinctNames : ∀ seed ∈ seeds, workspace.IsDistinct (Path.parent seed)) :
    let outcome := edges settings workspace.filesIn seeds candidates
    let driven := seeds.filter (isConventional settings)
    ∃ share : String → List String,
      (∀ seed ∈ driven, Contributes workspace settings seeds candidates (Path.parent seed)
        (share (Path.parent seed))) ∧
      (∀ path, path ∈ outcome.members ↔ ∃ seed ∈ driven, path ∈ share (Path.parent seed)) ∧
      outcome.members.Pairwise (· < ·) ∧ (∀ path ∈ outcome.members, path ∉ seeds) ∧
      outcome.edges.edges = (if isEdgeWeight settings.edgeWeight then driven.flatMap fun seed =>
        (share (Path.parent seed)).map fun path => ⟨seed, path, .sibling, settings.edgeWeight⟩
      else []) ∧
      ((∀ seed ∈ driven, workspace.IsPlain (Path.parent seed)) →
        (∀ path ∈ outcome.members, ∃ seed ∈ driven, Path.parent path = Path.parent seed) ∧
        (∀ directory, (outcome.members.filter fun path => Path.parent path = directory).length ≤
          settings.maxFilesPerDirectory) ∧
        outcome.edges.edges.Nodup ∧
        ∀ edge, edge ∈ outcome.edges.edges ↔ isEdgeWeight settings.edgeWeight = true ∧
          ∃ seed ∈ driven, ∃ path ∈ outcome.members, Path.parent path = Path.parent seed ∧
            edge = ⟨seed, path, .sibling, settings.edgeWeight⟩) := by
  intro outcome driven
  obtain ⟨share, share_eq⟩ : ∃ share : String → List String, share = fun directory =>
    members settings seeds candidates (workspace.filesIn directory) := ⟨_, rfl⟩
  have contributes (seed : String) (isDriven : seed ∈ driven) :
      Contributes workspace settings seeds candidates (Path.parent seed)
        (share (Path.parent seed)) := by
    rw [share_eq]
    exact contributes_members settings seeds candidates
      (distinctNames seed (List.mem_of_mem_filter isDriven))
  have notSeed (seed : String) (isDriven : seed ∈ driven) (path : String)
      (isShare : path ∈ share (Path.parent seed)) : path ∉ seeds :=
    ((contributes seed isDriven).exists_name isShare).1
  have outcome_eq : outcome = _ := edges_eq settings workspace.filesIn seeds candidates
  have members_eq :
      outcome.members = Text.distinctSorted (driven.flatMap (share ∘ Path.parent)) := by
    rw [outcome_eq, share_eq]
  have mem_members_iff (path : String) :
      path ∈ outcome.members ↔ ∃ seed ∈ driven, path ∈ share (Path.parent seed) := by
    rw [members_eq, Text.mem_distinctSorted]
    exact List.mem_flatMap
  have ascending : outcome.members.Pairwise (· < ·) :=
    members_eq ▸ Text.pairwise_lt_distinctSorted _
  have links : outcome.edges.edges = if isEdgeWeight settings.edgeWeight then
      driven.flatMap fun seed => linksOf settings seed (share (Path.parent seed)) else [] := by
    rw [← ofList_links fun seed isDriven isShare =>
      notSeed seed isDriven seed isShare (List.mem_of_mem_filter isDriven), outcome_eq, share_eq]
  refine ⟨share, contributes, mem_members_iff, ascending, fun path isMember => ?_, links,
    fun plain => ?_⟩
  · rcases (mem_members_iff path).mp isMember with ⟨seed, isDriven, isShare⟩
    exact notSeed seed isDriven path isShare
  have parent_eq (seed : String) (isDriven : seed ∈ driven) (path : String)
      (isShare : path ∈ share (Path.parent seed)) : Path.parent path = Path.parent seed :=
    (contributes seed isDriven).parent_eq (plain seed isDriven) isShare
  refine ⟨fun path isMember => ?_, ?_, ?_, fun edge => ?_⟩
  · rcases (mem_members_iff path).mp isMember with ⟨seed, isDriven, isShare⟩
    exact ⟨seed, isDriven, parent_eq seed isDriven path isShare⟩
  · exact length_filter_parent_le mem_members_iff parent_eq (ascending.imp ne_of_lt)
      fun seed isDriven => (contributes seed isDriven).length_le
  · rw [links]
    split
    · exact nodup_links (distinctSeeds.filter _) fun seed isDriven =>
        (contributes seed isDriven).nodup (plain seed isDriven)
    · exact List.nodup_nil
  · rw [links, List.mem_ite_nil_right, mem_links_iff]
    refine and_congr_right fun proper => exists_congr fun seed => and_congr_right fun isDriven =>
      exists_congr fun path => ?_
    rw [mem_share_iff mem_members_iff parent_eq isDriven path, and_assoc]

/-- The outcome for one seed. -/
theorem edges_singleton {listing : String → List String} {seed : String} {others : List String}
    (isDriven : isConventional settings seed = true)
    (share : members settings [seed] candidates (listing (Path.parent seed)) = others) :
    edges settings listing [seed] candidates =
      ⟨.ofList (linksOf settings seed others), Text.distinctSorted others⟩ := by
  rw [edges_eq, List.filter_singleton, isDriven, cond_true, List.flatMap_singleton,
    List.flatMap_singleton, Function.comp_apply]
  dsimp only
  rw [share]

/-- What stands in a directory of a module. -/
def moduleEntries : List (String × Entry) :=
  [("main.tf", .file [] false), ("modules", .directory [("nested.tf", .file [] false)]),
    ("notes.md", .file [] false), ("variables.tf", .file [] false)]

def moduleWorkspace : Workspace := ⟨.directory [("infra", .directory moduleEntries)], none⟩

/-- Every other file of the directory is linked once to a changed one, and nothing nested. -/
theorem edges_follow_directories_of_module :
    let candidates := ["infra/modules/nested.tf", "infra/notes.md", "infra/variables.tf"]
    let outcome := edges (SiblingSettings.default : SiblingSettings Float) moduleWorkspace.filesIn
      ["infra/main.tf"] candidates
    outcome.members = ["infra/variables.tf"] ∧ outcome.edges.edges.Nodup ∧
      (⟨"infra/main.tf", "infra/variables.tf", .sibling, Scalar.decimal 5 2⟩ : PathEdge Float) ∈
        outcome.edges.edges := by
  intro candidates outcome
  have parent : Path.parent "infra/main.tf" = "infra" := by decide +kernel
  have resolved : moduleWorkspace.tree.resolve? (Entry.segments "infra") =
      some (["infra"], .directory moduleEntries) := rfl
  have distinct : moduleWorkspace.IsDistinct "infra" :=
    Workspace.isDistinct_of_resolve resolved (by decide +kernel)
  have plain : moduleWorkspace.IsPlain "infra" :=
    Workspace.isPlain_of_resolve resolved (by decide +kernel) (by decide +kernel)
      (by decide +kernel)
  have listing : moduleWorkspace.filesIn "infra" =
      ["infra/main.tf", "infra/notes.md", "infra/variables.tf"] := by
    rw [Workspace.filesIn, resolved]
    dsimp only
    rw [List.mergeSort_of_pairwise (by decide +kernel)]
    decide +kernel
  have share : members (SiblingSettings.default : SiblingSettings Float) ["infra/main.tf"]
      candidates (moduleWorkspace.filesIn (Path.parent "infra/main.tf")) =
      ["infra/variables.tf"] := by
    rw [parent, listing]
    decide +kernel
  have members_eq : outcome.members = ["infra/variables.tf"] := by
    have outcome_eq : outcome = _ := edges_singleton (by decide +kernel) share
    rw [outcome_eq, Text.distinctSorted, List.mergeSort_singleton]
    rfl
  have driven : ["infra/main.tf"].filter
      (isConventional (SiblingSettings.default : SiblingSettings Float)) = ["infra/main.tf"] := by
    decide +kernel
  rcases edges_follow_directories moduleWorkspace (SiblingSettings.default : SiblingSettings Float)
    ["infra/main.tf"] candidates (by decide)
    (List.forall_mem_singleton.mpr (parent.symm ▸ distinct)) with ⟨-, -, -, -, -, -, exact⟩
  rw [driven, List.forall_mem_singleton, parent] at exact
  rcases exact plain with ⟨-, -, nodup, mem_iff⟩
  refine ⟨members_eq, nodup, (mem_iff _).mpr
    ⟨by decide +kernel, _, List.mem_singleton_self _, _, ?_, ?_, rfl⟩⟩
  · exact members_eq ▸ List.mem_singleton_self _
  · decide +kernel

/-- Two files of the root that go by one path. -/
def backslashEntries : List (String × Entry) :=
  [(".\\x.tf", .file [] false), ("main.tf", .file [] false), ("x.tf", .file [] false)]

def backslashWorkspace : Workspace := ⟨.directory backslashEntries, none⟩

def properSettings : SiblingSettings Float := .default

/-- Settings whose weight is positive and makes no edge. -/
def boundlessSettings : SiblingSettings Float := { properSettings with edgeWeight := 1 / 0 }

/-- A seed is linked twice to a member for which two files of its directory stand, and not at
all with a weight that is not finite. -/
theorem edges_repeat_or_fail :
    let links := fun settings : SiblingSettings Float =>
      (edges settings backslashWorkspace.filesIn ["main.tf"] ["x.tf"]).edges.edges
    let eligible := fun settings : SiblingSettings Float =>
      (edges settings backslashWorkspace.filesIn ["main.tf"] ["x.tf"]).members
    backslashWorkspace.IsDistinct (Path.parent "main.tf") ∧
      (Scalar.lt Scalar.zero properSettings.edgeWeight = true ∧ eligible properSettings = ["x.tf"] ∧
        links properSettings =
          List.replicate 2 ⟨"main.tf", "x.tf", .sibling, Scalar.decimal 5 2⟩) ∧
      (Scalar.lt Scalar.zero boundlessSettings.edgeWeight = true ∧
        eligible boundlessSettings = ["x.tf"] ∧ links boundlessSettings = []) := by
  intro links eligible
  have parent : Path.parent "main.tf" = "" := by decide +kernel
  have resolved : backslashWorkspace.tree.resolve? (Entry.segments "") =
      some ([], .directory backslashEntries) := rfl
  have listing : backslashWorkspace.filesIn "" = ["x.tf", "main.tf", "x.tf"] := by
    rw [Workspace.filesIn, resolved]
    dsimp only
    rw [List.mergeSort_of_pairwise (by decide +kernel)]
    decide +kernel
  have isMember : Text.distinctSorted ["x.tf", "x.tf"] = ["x.tf"] := by
    rw [Text.distinctSorted, List.mergeSort_of_pairwise (by decide +kernel)]
    decide +kernel
  have proper : edges properSettings backslashWorkspace.filesIn ["main.tf"] ["x.tf"] =
      ⟨.ofList (linksOf properSettings "main.tf" ["x.tf", "x.tf"]),
        Text.distinctSorted ["x.tf", "x.tf"]⟩ := by
    refine edges_singleton (by decide +kernel) ?_
    rw [parent, listing]
    decide +kernel
  have boundless : edges boundlessSettings backslashWorkspace.filesIn ["main.tf"] ["x.tf"] =
      ⟨.ofList (linksOf boundlessSettings "main.tf" ["x.tf", "x.tf"]),
        Text.distinctSorted ["x.tf", "x.tf"]⟩ := by
    refine edges_singleton (by decide +kernel) ?_
    rw [parent, listing]
    decide +kernel
  refine ⟨?_, ⟨by decide +kernel, ?_, ?_⟩, by decide +kernel, ?_, ?_⟩
  · rw [parent]
    exact Workspace.isDistinct_of_resolve resolved (by decide +kernel)
  · exact (congrArg Outcome.members proper).trans isMember
  · exact congrArg (fun outcome => outcome.edges.edges) proper
  · exact (congrArg Outcome.members boundless).trans isMember
  · exact congrArg (fun outcome => outcome.edges.edges) boundless

end ContextPack.Sibling
