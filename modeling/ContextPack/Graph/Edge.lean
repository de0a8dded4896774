import ContextPack.Number.Scalar

/-!
# Edges between files

Each producer of relations collects edges between paths in a buffer of its
own.  A buffer takes no self loop and no weight that is not a positive finite
number, so whatever is merged from it is a proper edge.
-/

namespace ContextPack

/-- Why two files are related. -/
inductive EdgeKind where
  | forwardCall
  | forwardType
  | backwardCall
  | importing
  | lexical
  | cochange
  | sibling
deriving DecidableEq

namespace EdgeKind

/-- All kinds in their order. -/
def all : List EdgeKind :=
  [forwardCall, forwardType, backwardCall, importing, lexical, cochange, sibling]

def place : EdgeKind → Nat
  | forwardCall => 0
  | forwardType => 1
  | backwardCall => 2
  | importing => 3
  | lexical => 4
  | cochange => 5
  | sibling => 6

/-- A sibling only becomes eligible; the walk that ranks files does not follow
the edge. -/
def isWalkable : EdgeKind → Bool
  | sibling => false
  | _ => true

def name : EdgeKind → String
  | forwardCall => "forward_call"
  | forwardType => "forward_type"
  | backwardCall => "backward_call"
  | importing => "import"
  | lexical => "lexical"
  | cochange => "cochange"
  | sibling => "sibling"

def ofName? (text : String) : Option EdgeKind :=
  all.find? fun kind => kind.name == text

end EdgeKind

/-- A weighted relation between two paths. -/
structure PathEdge (α : Type) where
  source : String
  target : String
  kind : EdgeKind
  weight : α

variable {α : Type} [Scalar α]

/-- A weight that an edge may carry. -/
def isEdgeWeight (weight : α) : Bool :=
  Scalar.isFinite weight && !Scalar.le weight Scalar.zero

/-- Edges of one producer in the order they were found. -/
structure EdgeBuffer (α : Type) where
  edges : List (PathEdge α)

namespace EdgeBuffer

def empty : EdgeBuffer α := ⟨[]⟩

/-- Adds an edge; self loops and improper weights are dropped. -/
def push (buffer : EdgeBuffer α) (source target : String) (kind : EdgeKind) (weight : α) :
    EdgeBuffer α :=
  if source = target || !isEdgeWeight weight then buffer
  else ⟨buffer.edges ++ [⟨source, target, kind, weight⟩]⟩

/-- The edges that a list of candidates for edges leaves. -/
def ofList (candidates : List (PathEdge α)) : EdgeBuffer α :=
  ⟨candidates.filter fun edge => !(edge.source = edge.target || !isEdgeWeight edge.weight)⟩

/-- The edges of one buffer followed by those of another. -/
def append (first second : EdgeBuffer α) : EdgeBuffer α := ⟨first.edges ++ second.edges⟩

def size (buffer : EdgeBuffer α) : Nat := buffer.edges.length

end EdgeBuffer

end ContextPack
