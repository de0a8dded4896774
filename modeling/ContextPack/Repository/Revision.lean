import ContextPack.Repository.Basic

/-!
# Revisions

A revision is a name or an id of a commit, followed by steps to its ancestors:
`~n` goes to the first parent `n` times, `^n` to the `n`-th parent once.
-/

namespace ContextPack

/-- Why a revision names no commit. -/
inductive RevisionProblem where
  | malformed (text : String)
  | unknown (name : String)
  /-- The beginning of an id that is too short to tell commits apart. -/
  | shortId
  | ambiguousId
  /-- A commit has no parent of this number, counted from zero. -/
  | noParent (index : Nat)
deriving DecidableEq

namespace RevisionProblem

def message : RevisionProblem → String
  | malformed text => "failed to parse revision specifier - Invalid pattern '" ++ text ++ "'"
  | unknown name => "revspec '" ++ name ++ "' not found"
  | shortId => "ambiguous lookup - OID prefix is too short"
  | ambiguousId => "ambiguous OID prefix - found multiple pack entries"
  | noParent index => "parent " ++ toString index ++ " does not exist"

end RevisionProblem

namespace Revision

/-! ## Reading -/

/-- A way from a commit to an ancestor. -/
inductive Step where
  /-- So many times to the first parent. -/
  | back (count : Nat)
  /-- To the parent of this number, counted from one; zero stays. -/
  | parent (number : Nat)
  /-- Stays at the commit. -/
  | self
deriving DecidableEq

/-- Numbers past this one are no counts. -/
def countLimit : Nat := 2147483647

def natural (digits : List Char) : Nat :=
  digits.foldl (fun value digit => value * 10 + (digit.toNat - '0'.toNat)) 0

/-- The number at the start of a text, one when there is none, and the length
of its digits. -/
def countAt (text : List Char) : Option (Nat × Nat) :=
  let digits := text.takeWhile Char.isDigit
  if digits.isEmpty then some (1, 0)
  else if countLimit < natural digits then none
  else some (natural digits, digits.length)

/-- What stands in braces after `^`: nothing or the word for a commit. -/
def bracedStep? : List Char → Option (Step × List Char)
  | '}' :: rest => some (.self, rest)
  | 'c' :: 'o' :: 'm' :: 'm' :: 'i' :: 't' :: '}' :: rest => some (.self, rest)
  | _ => none

/-- One step in front of the steps that follow it. -/
def andThen (step : Step) (others : List Step × Bool) : List Step × Bool :=
  (step :: others.1, others.2)

/-- The steps at the start of a text, at most `fuel` of them, and whether they
are all there is. -/
def stepsFrom : Nat → List Char → List Step × Bool
  | _, [] => ([], true)
  | 0, _ => ([], false)
  | fuel + 1, '~' :: rest =>
    match countAt rest with
    | some (count, length) => andThen (.back count) (stepsFrom fuel (rest.drop length))
    | none => ([], false)
  | fuel + 1, '^' :: '\x7b' :: rest =>
    match bracedStep? rest with
    | some (step, after) => andThen step (stepsFrom fuel after)
    | none => ([], false)
  | fuel + 1, '^' :: rest =>
    match countAt rest with
    | some (number, length) => andThen (.parent number) (stepsFrom fuel (rest.drop length))
    | none => ([], false)
  | _, _ => ([], false)

def stepsOf (text : List Char) : List Step × Bool := stepsFrom (text.length + 1) text

def endsName (c : Char) : Bool := c == '~' || c == '^'

/-! ## Names -/

/-- Where a short name is looked for, in this order: what to put in front of it
and what behind it. -/
def places : List (String × String) :=
  [("", ""), ("refs/", ""), ("refs/tags/", ""), ("refs/heads/", ""), ("refs/remotes/", ""),
   ("refs/remotes/", "/HEAD")]

/-- Characters that no name of a reference holds. -/
def isForbidden (c : Char) : Bool :=
  c.toNat ≤ 32 || ['~', '^', ':', '\\', '?', '[', '*'].contains c

/-- Whether a segment may stand in the name of a reference. -/
def isNameSegment (segment : List Char) : Bool :=
  !segment.isEmpty && segment.head? != some '.' && !segment.any isForbidden &&
    !Text.holds ['.', '.'] segment && !Text.holds ['@', '\x7b'] segment &&
    !Text.endsWith ".lock".toList segment

/-- Whether a text may be part of the name of a reference. -/
def isName (name : List Char) : Bool := (Text.pieces '/' name).all isNameSegment

/-- The current commit's own name. -/
def headName : String := "HEAD"

def full? (repository : Repository) (name : String) : Option String :=
  if name = headName then repository.headId? else repository.target? name

/-- The commit of a name, full or short. -/
def named? (repository : Repository) (name : String) : Option String :=
  places.findSome? fun (before, after) => full? repository (before ++ name ++ after)

/-! ## Ids -/

/-- How many digits a whole id has. -/
def idLength : Nat := 40

/-- The least digits that stand for an id. -/
def shortestId : Nat := 4

def isHexDigit (c : Char) : Bool := c.isDigit || ('a' ≤ c && c ≤ 'f') || ('A' ≤ c && c ≤ 'F')

/-- The ids that begin with a text. -/
def idsWith (repository : Repository) (start : List Char) : List String :=
  repository.commitIds.filter fun id => Text.startsWith (Text.lowerAscii start) id.toList

/-- The commit that the beginning of an id stands for; nothing if it stands for
none. -/
def abbreviated? (repository : Repository) (name : List Char) :
    Except RevisionProblem (Option String) :=
  if name.isEmpty || idLength < name.length || !name.all isHexDigit then .ok none
  else if name.length < shortestId then .error .shortId
  else
    match idsWith repository name with
    | [] => .ok none
    | [id] => .ok (some id)
    | _ => .error .ambiguousId

/-- A description of a commit: a name, a number and, after `-g`, an id. -/
def describedId? (name : List Char) : Option (List Char) :=
  match Text.splitFirst? ['-', 'g'] name with
  | none => none
  | some (before, id) =>
    let number := (before.reverse.takeWhile Char.isDigit).length
    match before.reverse.drop number with
    | '-' :: _ :: _ => if 0 < number && id.all isHexDigit && !id.isEmpty then some id else none
    | _ => none

/-- The commit that a name without steps stands for. -/
def lookup (repository : Repository) (name : List Char) : Except RevisionProblem String := do
  let text := String.ofList name
  let whole ← if name.length = idLength then abbreviated? repository name else .ok none
  match whole with
  | some id => return id
  | none =>
    match named? repository text with
    | some id => return id
    | none =>
      if !isName name then throw (.malformed text)
      match ← abbreviated? repository name with
      | some id => return id
      | none =>
        let described ← match describedId? name with
          | some id => abbreviated? repository id
          | none => .ok none
        match described with
        | some id => return id
        | none => throw (.unknown text)

/-! ## Steps -/

/-- The parent of a commit, counted from zero. -/
def parent (repository : Repository) (id : String) (index : Nat) :
    Except RevisionProblem String :=
  match (repository.commit? id).bind fun commit => commit.parents[index]? with
  | some parent => .ok parent
  | none => .error (.noParent index)

/-- So many first parents back. -/
def ancestor (repository : Repository) : Nat → String → Except RevisionProblem String
  | 0, id => .ok id
  | count + 1, id => do
    let next ← parent repository id 0
    ancestor repository count next

def follow (repository : Repository) (id : String) : Step → Except RevisionProblem String
  | .self => .ok id
  | .back count => ancestor repository count id
  | .parent 0 => .ok id
  | .parent (index + 1) => parent repository id index

/-- The commit that a revision names. -/
def resolve (repository : Repository) (revision : String) : Except RevisionProblem String := do
  let text := if revision = "@" then headName.toList else revision.toList
  let name := text.takeWhile fun c => !endsName c
  if name.isEmpty then throw (.malformed revision)
  let start ← (lookup repository name).mapError fun
    | .malformed _ => .malformed revision
    | problem => problem
  let (steps, whole) := stepsOf (text.drop name.length)
  let found ← steps.foldlM (follow repository) start
  if whole then return found else throw (.malformed revision)

end Revision

end ContextPack
