import ContextPack.Proofs.Text.Order
import ContextPack.Repository.History

namespace ContextPack
namespace HistoryWalk

/-!
# A walk through history is a bounded prefix of it

Each call takes some items from the front of those ahead and reports at most
the last of them.  What several calls take is again a front part, so the whole
walk is known from the part that it took: the commits reported are those of it
that qualify, the number of visits is the number of its ids, and what is left
tells which bound stopped the walk.
-/

variable {records : String → Option CommitRecord}

/-! ## What a walk is to do -/

/-- What an item contributes to the report. -/
def reportOf (records : String → Option CommitRecord) (item : Option String) :
    Option HistoricalCommit :=
  item.bind fun id => (reported? records id).map fun files => ⟨id, files⟩

/-- How many items are ids. -/
def visited (items : List (Option String)) : Nat := items.countP Option.isSome

/-- Asking until there is no answer reports these commits and ends there. -/
inductive Drains (records : String → Option CommitRecord) :
    HistoryWalk → List HistoricalCommit → HistoryWalk → Prop where
  | ended {walk last : HistoryWalk} (answer : walk.next records = (none, last)) :
      Drains records walk [] last
  | report {walk later last : HistoryWalk} {commit : HistoricalCommit}
      {others : List HistoricalCommit} (answer : walk.next records = (some commit, later))
      (more : Drains records later others last) : Drains records walk (commit :: others) last

/-- Between two states of a walk these items were taken and these commits
reported. -/
structure Passes (records : String → Option CommitRecord) (walk : HistoryWalk)
    (consumed : List (Option String)) (commits : List HistoricalCommit) (later : HistoryWalk) :
    Prop where
  pending_eq : walk.pending = consumed ++ later.pending
  commits_eq : commits = consumed.filterMap (reportOf records)
  walked_eq : later.walked = walk.walked + visited consumed
  maxCommits_eq : later.maxCommits = walk.maxCommits
  expired_eq : later.expired = walk.expired
  walked_le : walk.walked ≤ walk.maxCommits → later.walked ≤ later.maxCommits
  consumed_of_expired : walk.expired = true → consumed = []

/-- The walk has ended, and `truncated` says why. -/
structure IsOver (walk : HistoryWalk) : Prop where
  limit_iff : walk.truncated = some .commitLimit ↔
    walk.maxCommits ≤ walk.walked ∧ walk.pending ≠ []
  deadline_iff : walk.truncated = some .deadline ↔
    walk.walked < walk.maxCommits ∧ walk.expired = true
  pending_of_whole : walk.truncated = none → walk.pending = []

/-! ## Reports -/

/-- Reported are the commits that can be read, have at most one parent and whose
files can be told. -/
theorem reportOf_eq_some_iff (item : Option String) (commit : HistoricalCommit) :
    reportOf records item = some commit ↔
      item = some commit.id ∧ ∃ record, records commit.id = some record ∧
        record.parentCount ≤ 1 ∧ record.files = some commit.files := by
  have isReported (id : String) (files : List String) : reported? records id = some files ↔
      ∃ record, records id = some record ∧ record.parentCount ≤ 1 ∧ record.files = some files := by
    rw [reported?]
    cases records id with
    | none => exact iff_of_false nofun fun ⟨_, impossible, _⟩ => nomatch impossible
    | some record =>
        simp only [Option.some.injEq, exists_eq_left']
        split
        · next single => exact (and_iff_right single).symm
        · next merge => exact iff_of_false nofun fun both => merge both.1
  rw [reportOf, Option.bind_eq_some_iff]
  constructor
  · rintro ⟨id, rfl, isReport⟩
    rcases Option.map_eq_some_iff.mp isReport with ⟨files, found, rfl⟩
    exact ⟨rfl, (isReported id files).mp found⟩
  · rintro ⟨rfl, qualifies⟩
    refine ⟨commit.id, rfl, Option.map_eq_some_iff.mpr ⟨commit.files, ?_, rfl⟩⟩
    exact (isReported commit.id commit.files).mpr qualifies

/-! ## Parts of a walk -/

/-- Taking nothing only gives a reason to stop. -/
theorem Passes.stop (walk : HistoryWalk) (reason : Option Truncation) :
    Passes records walk [] [] { walk with truncated := reason } where
  pending_eq := rfl
  commits_eq := rfl
  walked_eq := rfl
  maxCommits_eq := rfl
  expired_eq := rfl
  walked_le := id
  consumed_of_expired _ := rfl

/-- An item is taken while neither bound is reached. -/
theorem Passes.take (records : String → Option CommitRecord) {walk : HistoryWalk}
    {item : Option String} {rest : List (Option String)}
    (ahead : walk.pending = item :: rest) (below : walk.walked < walk.maxCommits)
    (inTime : walk.expired = false) :
    Passes records walk [item] (reportOf records item).toList
      { walk with pending := rest, walked := walk.walked + visited [item] } where
  pending_eq := ahead
  commits_eq := by
    rw [List.filterMap_cons]
    cases reportOf records item with
    | none => rfl
    | some commit => rfl
  walked_eq := rfl
  maxCommits_eq := rfl
  expired_eq := rfl
  walked_le _ := (Nat.add_le_add_left List.countP_le_length walk.walked).trans below
  consumed_of_expired late := absurd (late.symm.trans inTime) nofun

theorem Passes.trans {walk middle last : HistoryWalk} {first second : List (Option String)}
    {commits others : List HistoricalCommit} (before : Passes records walk first commits middle)
    (behind : Passes records middle second others last) :
    Passes records walk (first ++ second) (commits ++ others) last where
  pending_eq := by rw [before.pending_eq, behind.pending_eq, List.append_assoc]
  commits_eq := by rw [before.commits_eq, behind.commits_eq, List.filterMap_append]
  walked_eq := by
    rw [behind.walked_eq, before.walked_eq, visited, visited, visited, List.countP_append,
      Nat.add_assoc]
  maxCommits_eq := behind.maxCommits_eq.trans before.maxCommits_eq
  expired_eq := behind.expired_eq.trans before.expired_eq
  walked_le bounded := behind.walked_le (before.walked_le bounded)
  consumed_of_expired late := by
    rw [before.consumed_of_expired late,
      behind.consumed_of_expired (before.expired_eq.trans late)]
    rfl

/-! ## One call -/

/-- What a search does with an item does not depend on why there is nothing to
report of it. -/
theorem seek_cons (records : String → Option CommitRecord) (maxCommits : Nat) (expired : Bool)
    (item : Option String) (rest : List (Option String)) (walked : Nat) :
    seek records maxCommits expired (item :: rest) walked =
      if maxCommits ≤ walked then
        (none, ⟨item :: rest, maxCommits, expired, walked, some .commitLimit⟩)
      else if expired then (none, ⟨item :: rest, maxCommits, expired, walked, some .deadline⟩)
      else
        match reportOf records item with
        | some commit =>
          (some commit, ⟨rest, maxCommits, expired, walked + visited [item], none⟩)
        | none => seek records maxCommits expired rest (walked + visited [item]) := by
  cases item with
  | none => rw [seek]; rfl
  | some id =>
      rw [seek, reportOf, Option.bind_some]
      cases reported? records id with
      | none => rfl
      | some files => rfl

/-- A call reports the last item it takes, or it ends the walk. -/
theorem seek_passes (records : String → Option CommitRecord) (maxCommits : Nat) (expired : Bool)
    (items : List (Option String)) (walked : Nat) :
    let answer := seek records maxCommits expired items walked
    ∃ consumed, Passes records ⟨items, maxCommits, expired, walked, none⟩ consumed
        answer.1.toList answer.2 ∧
      (answer.1 = none → IsOver answer.2) ∧
      (answer.1 ≠ none → answer.2.truncated = none ∧ consumed ≠ []) := by
  induction items generalizing walked with
  | nil =>
      refine ⟨[], Passes.stop _ _, fun _ => ?_, fun answered => absurd rfl answered⟩
      by_cases late : walked < maxCommits ∧ expired = true
      · exact ⟨by simp [seek, late], by simp [seek, late], fun _ => rfl⟩
      · exact ⟨by simp [seek, late], by simp [seek, late], fun _ => rfl⟩
  | cons item rest inductionHypothesis =>
      simp only [seek_cons]
      split
      · next reached =>
          refine ⟨[], Passes.stop _ _, fun _ => ?_, fun answered => absurd rfl answered⟩
          exact ⟨iff_of_true rfl ⟨reached, List.cons_ne_nil _ _⟩,
            iff_of_false nofun fun both => not_lt.mpr reached both.1, nofun⟩
      · next below =>
          have below := not_le.mp below
          split
          · next late =>
              refine ⟨[], Passes.stop _ _, fun _ => ?_, fun answered => absurd rfl answered⟩
              exact ⟨iff_of_false nofun fun both => not_le.mpr below both.1,
                iff_of_true rfl ⟨below, late⟩, nofun⟩
          · next early =>
              have taken : Passes records ⟨item :: rest, maxCommits, expired, walked, none⟩ [item]
                  (reportOf records item).toList
                  ⟨rest, maxCommits, expired, walked + visited [item], none⟩ :=
                Passes.take records rfl below (Bool.eq_false_iff.mpr early)
              cases report : reportOf records item with
              | some commit =>
                  rw [report] at taken
                  exact ⟨[item], taken, nofun, fun _ => ⟨rfl, List.cons_ne_nil _ _⟩⟩
              | none =>
                  rw [report] at taken
                  rcases inductionHypothesis (walked + visited [item]) with
                    ⟨consumed, passes, ends, reports⟩
                  exact ⟨item :: consumed, taken.trans passes, ends,
                    fun answered => ⟨(reports answered).1, List.cons_ne_nil _ _⟩⟩

theorem next_eq_seek {walk : HistoryWalk} (running : walk.truncated = none) :
    walk.next records = seek records walk.maxCommits walk.expired walk.pending walk.walked := by
  rw [next, running]
  rfl

/-- The state of a running walk by its parts. -/
theorem eq_of_running {walk : HistoryWalk} (running : walk.truncated = none) :
    walk = ⟨walk.pending, walk.maxCommits, walk.expired, walk.walked, none⟩ := by
  rw [← running]

/-- What is true of a call while the walk runs. -/
theorem next_passes (records : String → Option CommitRecord) {walk : HistoryWalk}
    (running : walk.truncated = none) :
    ∃ consumed, Passes records walk consumed (walk.next records).1.toList (walk.next records).2 ∧
      ((walk.next records).1 = none → IsOver (walk.next records).2) ∧
      ((walk.next records).1 ≠ none →
        (walk.next records).2.truncated = none ∧ consumed ≠ []) := by
  have spec := seek_passes records walk.maxCommits walk.expired walk.pending walk.walked
  rwa [← eq_of_running running, ← next_eq_seek running] at spec

/-- A walk that is over stays as it is. -/
theorem IsOver.next_eq {walk : HistoryWalk} (isOver : walk.IsOver) :
    walk.next records = (none, walk) := by
  cases reason : walk.truncated with
  | some bound =>
      rw [next, reason]
      rfl
  | none =>
      have inTime : ¬(walk.walked < walk.maxCommits ∧ walk.expired = true) := by
        rw [← isOver.deadline_iff, reason]
        exact nofun
      rw [next_eq_seek reason, isOver.pending_of_whole reason, seek,
        if_neg (by simpa using inTime), ← isOver.pending_of_whole reason, ← eq_of_running reason]

/-! ## Many calls -/

/-- Whatever is reported until there is no answer comes from a front part of the
items, and then the walk is over. -/
theorem Drains.passes {walk last : HistoryWalk} {commits : List HistoricalCommit}
    (drains : Drains records walk commits last) (running : walk.truncated = none) :
    (∃ consumed, Passes records walk consumed commits last) ∧ last.IsOver := by
  induction drains with
  | ended answer =>
      rcases next_passes records running with ⟨consumed, passes, ends, -⟩
      rw [answer] at passes ends
      exact ⟨⟨consumed, passes⟩, ends rfl⟩
  | report answer _ inductionHypothesis =>
      rcases next_passes records running with ⟨consumed, passes, -, reports⟩
      rw [answer] at passes reports
      rcases inductionHypothesis (reports nofun).1 with ⟨⟨others, later⟩, isOver⟩
      exact ⟨⟨consumed ++ others, passes.trans later⟩, isOver⟩

/-- As every report takes an item, asking once more often than there are items
is asking until there is no answer. -/
theorem drains_collect {fuel : Nat} {walk : HistoryWalk} (running : walk.truncated = none)
    (enough : walk.pending.length < fuel) :
    Drains records walk (collect records fuel walk).1 (collect records fuel walk).2 := by
  induction fuel generalizing walk with
  | zero => exact absurd enough (Nat.not_lt_zero _)
  | succ fuel inductionHypothesis =>
      rcases next_passes records running with ⟨consumed, passes, -, reports⟩
      rw [collect]
      cases answer : walk.next records with
      | mk report later =>
          cases report with
          | none => exact Drains.ended answer
          | some commit =>
              rw [answer] at passes reports
              rcases reports nofun with ⟨stillRunning, taken⟩
              have fewer : later.pending.length < fuel := by
                have lengths : walk.pending.length = consumed.length + later.pending.length := by
                  rw [passes.pending_eq, List.length_append]
                have positive := List.length_pos_of_ne_nil taken
                omega
              exact Drains.report answer (inductionHypothesis stillRunning fewer)

theorem drains_run (records : String → Option CommitRecord) {walk : HistoryWalk}
    (running : walk.truncated = none) :
    Drains records walk (walk.run records).1 (walk.run records).2 :=
  drains_collect running (Nat.lt_succ_self _)

/-- Asking until there is no answer takes a front part of the items and reports
the commits of it that qualify.  Visits are counted by ids and stay within the
limit.  A walk that the limit stopped has items left, one that the deadline
stopped has not begun, and any other one has taken everything.  Whichever it is,
nothing changes it any more. -/
theorem walk_is_bounded_prefix (records : String → Option CommitRecord)
    (items : List (Option String)) (maxCommits : Nat) (expired : Bool) :
    let walk := start items maxCommits expired
    let commits := (walk.run records).1
    let last := (walk.run records).2
    Drains records walk commits last ∧
      (∃ consumed, items = consumed ++ last.pending ∧
        commits = consumed.filterMap (reportOf records) ∧
        last.walked = visited consumed ∧
        (last.truncated = some .deadline → consumed = [])) ∧
      (∀ item commit, reportOf records item = some commit ↔
        item = some commit.id ∧ ∃ record, records commit.id = some record ∧
          record.parentCount ≤ 1 ∧ record.files = some commit.files) ∧
      last.walked ≤ maxCommits ∧
      (last.truncated = some .commitLimit ↔ last.walked = maxCommits ∧ last.pending ≠ []) ∧
      (last.truncated = some .deadline ↔ last.walked < maxCommits ∧ expired = true) ∧
      (last.truncated = none → last.pending = []) ∧
      last.next records = (none, last) := by
  intro walk commits last
  have drains : Drains records walk commits last := drains_run records rfl
  rcases drains.passes rfl with ⟨⟨consumed, passes⟩, isOver⟩
  have limit : last.maxCommits = maxCommits := passes.maxCommits_eq
  have late : last.expired = expired := passes.expired_eq
  have bounded : last.walked ≤ last.maxCommits := passes.walked_le (Nat.zero_le _)
  have walked_eq : last.walked = visited consumed := passes.walked_eq.trans (Nat.zero_add _)
  have deadline := isOver.deadline_iff
  rw [limit, late] at deadline
  refine ⟨drains, ⟨consumed, passes.pending_eq, passes.commits_eq, walked_eq, fun stopped => ?_⟩,
    reportOf_eq_some_iff, limit ▸ bounded, ?_, deadline, isOver.pending_of_whole, isOver.next_eq⟩
  · exact passes.consumed_of_expired (deadline.mp stopped).2
  · rw [isOver.limit_iff, ← limit]
    exact and_congr_left' (bounded.ge_iff_eq)

end HistoryWalk

/-! ## Histories of a repository -/

namespace Repository

/-- The files of a commit that a walk reports are distinct. -/
theorem nodup_files_of_mem_walkFrom {repository : Repository} {start : String} {maxCommits : Nat}
    {expired : Bool} {commit : HistoricalCommit}
    (member : commit ∈ (repository.walkFrom start maxCommits expired).1) : commit.files.Nodup := by
  let walk := HistoryWalk.start ((Ancestry.history repository start).map some) maxCommits expired
  have running : walk.truncated = none := rfl
  have drains := HistoryWalk.drains_run repository.record? running
  rcases drains.passes rfl with ⟨⟨consumed, passes⟩, -⟩
  rw [walkFrom, passes.commits_eq] at member
  rcases List.mem_filterMap.mp member with ⟨item, -, isReport⟩
  rcases (HistoryWalk.reportOf_eq_some_iff item commit).mp isReport with
    ⟨-, record, found, -, hasFiles⟩
  rcases Option.map_eq_some_iff.mp found with ⟨stored, -, rfl⟩
  rcases Option.map_eq_some_iff.mp hasFiles with ⟨before, -, isFiles⟩
  rw [← isFiles]
  exact Text.nodup_distinctSorted _

end Repository
end ContextPack
