import ContextPack.Data.Datum

/-!
# TOML tables

A TOML text fills a tree of tables line by line.  A table is made by a header,
by a key with dots, or merely on the way to something deeper; how it was made
decides what may be added to it later.
-/

namespace ContextPack.Toml

/-- How a table came about. -/
inductive Origin where
  /-- It has a header of its own. -/
  | header
  /-- It was passed on the way to a header. -/
  | passage
  /-- It was passed by a key with dots. -/
  | dotted
deriving DecidableEq

/-- What stands under a key. -/
inductive Node (φ : Type) where
  | leaf (value : Datum φ)
  | table (origin : Origin) (entries : List (String × Node φ))
  /-- Tables of one name, the latest first. -/
  | tables (latest : List (String × Node φ)) (earlier : List (List (String × Node φ)))

namespace Node

variable {φ : Type}

/-- What stands under a name. -/
def lookup (name : String) : List (String × Node φ) → Option (Node φ)
  | [] => none
  | (key, node) :: rest => if key = name then some node else lookup name rest

/-- Entries with something new under a name. -/
def replace (name : String) (node : Node φ) : List (String × Node φ) → List (String × Node φ)
  | [] => [(name, node)]
  | (key, old) :: rest => if key = name then (name, node) :: rest else (key, old) :: replace name node rest

/-- Changes the entries of the table that a header's path leads to; tables are
made on the way, and of several of one name the latest counts. -/
def within (change : List (String × Node φ) → Option (List (String × Node φ))) :
    List String → List (String × Node φ) → Option (List (String × Node φ))
  | [], entries => change entries
  | name :: rest, entries =>
    match lookup name entries with
    | none => (within change rest []).map fun inner => replace name (table .passage inner) entries
    | some (leaf _) => none
    | some (table origin inner) =>
      (within change rest inner).map fun inner => replace name (table origin inner) entries
    | some (tables latest earlier) =>
      (within change rest latest).map fun latest => replace name (tables latest earlier) entries

/-- A table as its header leaves it: one that was only passed so far is now
made for good, any other may not be made again. -/
def openTable (name : String) (entries : List (String × Node φ)) :
    Option (List (String × Node φ)) :=
  match lookup name entries with
  | none => some (replace name (table .header []) entries)
  | some (table .passage inner) => some (replace name (table .header inner) entries)
  | some _ => none

def appendTable (name : String) (entries : List (String × Node φ)) :
    Option (List (String × Node φ)) :=
  match lookup name entries with
  | none => some (replace name (tables [] []) entries)
  | some (tables latest earlier) => some (replace name (tables [] (latest :: earlier)) entries)
  | some _ => none

/-- Puts a value under a key with dots, all of whose parts but the last name
tables that are made this way only.  `isDotted` tells that of the table at
hand, `isFirst` that no part was passed yet. -/
def assign (value : Node φ) (isFirst isDotted : Bool) :
    List String → List (String × Node φ) → Option (List (String × Node φ))
  | [], _ => none
  | [name], entries =>
    if isDotted == isFirst then none
    else
      match lookup name entries with
      | none => some (replace name value entries)
      | some _ => none
  | name :: rest, entries =>
    match lookup name entries with
    | none =>
      (assign value false true rest []).map fun inner =>
        replace name (table .dotted inner) entries
    | some (leaf _) => none
    | some (table .header _) => none
    | some (table origin inner) =>
      (assign value false (origin == .dotted) rest inner).map fun inner =>
        replace name (table origin inner) entries
    | some (tables latest earlier) =>
      (assign value false false rest latest).map fun latest =>
        replace name (tables latest earlier) entries

/-- Puts a value under a key of a table that a header or nothing opened. -/
def define (key : List String) (value : Datum φ) (entries : List (String × Node φ)) :
    Option (List (String × Node φ)) :=
  assign (leaf value) true false key entries

mutual

def toDatum : Node φ → Datum φ
  | leaf value => value
  | table _ entries => .record (toFields entries)
  | tables latest earlier => .list ((toRecords earlier).reverse ++ [.record (toFields latest)])

def toFields : List (String × Node φ) → List (String × Datum φ)
  | [] => []
  | (name, node) :: rest => (name, node.toDatum) :: toFields rest

def toRecords : List (List (String × Node φ)) → List (Datum φ)
  | [] => []
  | entries :: rest => .record (toFields entries) :: toRecords rest

end

end Node

end ContextPack.Toml
