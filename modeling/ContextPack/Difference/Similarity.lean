/-!
# Similarity

How much of two files is the same, in percent.  A file is reduced to a
signature: the hashes of its lines, of long lines in parts, of which only the
largest and the smallest are kept.  White space in front of a line does not
count.
-/

namespace ContextPack.Difference

def mixHash (state : UInt64) (byte : UInt8) : UInt64 :=
  (state <<< 5) - state + byte.toUInt64

/-- What a hash begins with. -/
def hashStart : UInt64 := 81985529234382576

/-- The most bytes that one hash covers. -/
def longestRun : Nat := 80

/-- Blanks that do not end a line. -/
def isInnerBlank (byte : UInt8) : Bool :=
  byte == 32 || byte == 9 || byte == 13 || byte == 12 || byte == 11

def endsLine (byte : UInt8) : Bool := byte == 10 || byte == 0

/-- The hash of one run, and what follows. -/
structure Run where
  state : UInt64
  length : Nat
  /-- The run ended with a line. -/
  atLineStart : Bool
  rest : List UInt8

/-- Hashes bytes up to the end of a line, at most `fuel` of them.  Blanks at the
start of a line are skipped, elsewhere carriage returns are. -/
def hashRun : Nat → UInt64 → Nat → Bool → List UInt8 → Run
  | 0, state, length, atLineStart, rest => ⟨state, length, atLineStart, rest⟩
  | fuel + 1, state, length, atLineStart, text =>
    let skipped := text.dropWhile fun byte => if atLineStart then isInnerBlank byte else byte == 13
    match skipped with
    | [] => ⟨state, length, false, []⟩
    | byte :: rest =>
      if endsLine byte then ⟨state, length, byte == 10, rest⟩
      else hashRun fuel (mixHash state byte) (length + 1) false rest

/-- The hashes of a text, run by run. -/
def hashesFrom : Nat → Bool → List UInt8 → List UInt32
  | 0, _, _ => []
  | _, _, [] => []
  | fuel + 1, atLineStart, text =>
    let run := hashRun longestRun hashStart 0 atLineStart text
    if run.length = 0 then hashesFrom fuel run.atLineStart run.rest
    else run.state.toUInt32 :: hashesFrom fuel run.atLineStart (run.rest.dropWhile endsLine)

def hashes (text : List UInt8) : List UInt32 := hashesFrom text.length true text

/-! ## Signatures -/

/-- How many hashes are kept at either end. -/
def keptHashes : Nat := 127

/-- A text with fewer hashes has no signature. -/
def fewestHashes : Nat := 4

/-- A hash put into an ascending list. -/
def insertHash (before : UInt32 → UInt32 → Bool) (hash : UInt32) : List UInt32 → List UInt32
  | [] => [hash]
  | head :: rest =>
    if before head hash then head :: insertHash before hash rest else hash :: head :: rest

/-- Hashes kept so far, with their number. -/
structure Kept where
  hashes : List UInt32
  count : Nat

/-- Takes one more hash.  A full list makes room by dropping its first hash when
that comes before the new one, which then is not taken either. -/
def Kept.take (before : UInt32 → UInt32 → Bool) (kept : Kept) (hash : UInt32) : Kept :=
  if kept.count < keptHashes then ⟨insertHash before hash kept.hashes, kept.count + 1⟩
  else
    match kept.hashes with
    | [] => kept
    | first :: rest => if before first hash then ⟨rest, kept.count - 1⟩ else kept

/-- What is left of a text for comparing. -/
structure Signature where
  ascending : Kept
  descending : Kept

/-- The signature of a text; none for a short one. -/
def signature? (text : List UInt8) : Option Signature :=
  let all := hashes text
  let up := all.foldl (Kept.take fun a b => a < b) ⟨[], 0⟩
  let down := all.foldl (Kept.take fun a b => b < a) ⟨[], 0⟩
  if up.count < fewestHashes then none else some ⟨up, down⟩

/-- How many hashes two sorted lists share. -/
def shared (before : UInt32 → UInt32 → Bool) : List UInt32 → List UInt32 → Nat
  | [], _ => 0
  | _, [] => 0
  | a :: as, b :: bs =>
    if before a b then shared before as (b :: bs)
    else if before b a then shared before (a :: as) bs
    else shared before as bs + 1
termination_by as bs => as.length + bs.length

/-- The shared part of two lists in percent. -/
def percentage (before : UInt32 → UInt32 → Bool) (a b : Kept) : Nat :=
  100 * (2 * shared before a.hashes b.hashes) / (a.count + b.count)

/-- How much of two signatures is the same, in percent. -/
def Signature.compare (a b : Signature) : Nat :=
  let up := percentage (fun x y => x < y) a.ascending b.ascending
  if a.ascending.count < keptHashes then up
  else (up + percentage (fun x y => y < x) a.descending b.descending) / 2

/-! ## Files -/

/-- A text with what is needed to compare it to others. -/
structure Measured where
  bytes : List UInt8
  size : Nat
  signature : Option Signature

def measure (bytes : List UInt8) : Measured := ⟨bytes, bytes.length, signature? bytes⟩

/-- Files up to this size are compared whatever the size of the other one. -/
def smallSize : Nat := 127

/-- Whether one of two sizes is out of all proportion to the other. -/
def isOutOfProportion (a b : Nat) : Bool :=
  smallSize < a && smallSize < b && (8 * b < a || 8 * a < b)

/-- How similar two texts are, in percent; none if they cannot be compared. -/
def similarity? (old new : Measured) : Option Nat :=
  if old.size = new.size && old.bytes == new.bytes then some 100
  else if isOutOfProportion old.size new.size then none
  else
    match old.signature, new.signature with
    | some a, some b => some (a.compare b)
    | _, _ => none

end ContextPack.Difference
