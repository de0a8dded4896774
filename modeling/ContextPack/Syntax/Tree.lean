/-!
# Syntax trees

A tree calls each of its nodes by a kind, a word of the grammar that it comes
from.  A child may stand in a field of its parent.  Children that are mere
tokens, such as brackets, are not named; a walk through the tree leaves them
out.
-/

namespace ContextPack.Syntax

/-- A syntax tree; every child comes with the field that it stands in. -/
inductive Tree where
  | node (kind : String) (named : Bool) (text : String) (children : List (Option String × Tree))

/-- A tree below another one. -/
abbrev Child := Option String × Tree

namespace Tree

def kind : Tree → String
  | node kind _ _ _ => kind

def named : Tree → Bool
  | node _ named _ _ => named

def text : Tree → String
  | node _ _ text _ => text

def children : Tree → List Child
  | node _ _ _ children => children

/-- The first child in a field. -/
def child? (tree : Tree) (field : String) : Option Tree :=
  (tree.children.find? fun child => child.1 = some field).map Prod.snd

def childrenIn (tree : Tree) (field : String) : List Tree :=
  (tree.children.filter fun child => child.1 = some field).map Prod.snd

def namedChildren (tree : Tree) : List Tree :=
  (tree.children.map Prod.snd).filter named

/-! ## Size -/

mutual

/-- The number of nodes. -/
def size : Tree → Nat
  | node _ _ _ children => sizeOfAll children + 1

def sizeOfAll : List Child → Nat
  | [] => 0
  | (_, tree) :: rest => tree.size + sizeOfAll rest

end

theorem size_le_sizeOfAll {child : Child} {children : List Child} (isChild : child ∈ children) :
    child.2.size ≤ sizeOfAll children := by
  induction children with
  | nil => cases isChild
  | cons first rest inductionHypothesis =>
      rw [sizeOfAll]
      rcases List.mem_cons.mp isChild with rfl | later
      · omega
      · have := inductionHypothesis later
        omega

theorem size_lt_of_child? {tree child : Tree} {field : String}
    (found : tree.child? field = some child) : child.size < tree.size := by
  rcases Option.map_eq_some_iff.mp found with ⟨entry, foundEntry, rfl⟩
  have atMost := size_le_sizeOfAll (List.mem_of_find?_eq_some foundEntry)
  rcases tree with ⟨kind, named, text, children⟩
  exact Nat.lt_succ_of_le atMost

/-- The number of nodes of several trees. -/
def totalSize : List Tree → Nat
  | [] => 0
  | tree :: rest => tree.size + totalSize rest

theorem totalSize_append (first second : List Tree) :
    totalSize (first ++ second) = totalSize first + totalSize second := by
  induction first with
  | nil => exact (Nat.zero_add _).symm
  | cons tree rest inductionHypothesis =>
      rw [List.cons_append, totalSize, totalSize, inductionHypothesis, Nat.add_assoc]

theorem totalSize_reverse (trees : List Tree) : totalSize trees.reverse = totalSize trees := by
  induction trees with
  | nil => rfl
  | cons tree rest inductionHypothesis =>
      rw [List.reverse_cons, totalSize_append, inductionHypothesis, totalSize, totalSize, totalSize]
      omega

theorem totalSize_filter_le (test : Tree → Bool) (children : List Child) :
    totalSize ((children.map Prod.snd).filter test) ≤ sizeOfAll children := by
  induction children with
  | nil => exact Nat.le_refl 0
  | cons first rest inductionHypothesis =>
      rw [sizeOfAll, List.map_cons, List.filter_cons]
      split
      · rw [totalSize]
        omega
      · omega

theorem totalSize_namedChildren_lt (tree : Tree) : totalSize tree.namedChildren < tree.size := by
  rcases tree with ⟨kind, isNamed, text, children⟩
  exact Nat.lt_succ_of_le (totalSize_filter_le named children)

/-! ## Following fields -/

/-- The node where following fields ends: one of a final kind, where each other
kind tells by which field to go on from it. -/
def endOf? (final : List String) (onward : String → Option String) (tree : Tree) : Option Tree :=
  if final.contains tree.kind then some tree
  else
    match onward tree.kind with
    | none => none
    | some field =>
      match _ : tree.child? field with
      | none => none
      | some next => next.endOf? final onward
termination_by tree.size
decreasing_by exact size_lt_of_child? ‹_›

end Tree

/-! ## Walks -/

/-- A node in its place: with the kinds of the nodes above it, innermost
first. -/
structure Placed where
  above : List String
  tree : Tree

namespace Placed

def children (node : Placed) : List Placed :=
  node.tree.namedChildren.map fun child => ⟨node.tree.kind :: node.above, child⟩

theorem map_tree_children (node : Placed) :
    node.children.map tree = node.tree.namedChildren := by
  rw [children, List.map_map]
  exact List.map_id _

/-- The named children as they come on top of a stack, with either the first or
the last of them as the next node. -/
def pushed (lastNext : Bool) (node : Placed) : List Placed :=
  if lastNext then node.children.reverse else node.children

theorem totalSize_pushed_lt (lastNext : Bool) (node : Placed) :
    Tree.totalSize ((node.pushed lastNext).map tree) < node.tree.size := by
  have fewer := node.tree.totalSize_namedChildren_lt
  rw [pushed]
  split
  · rwa [List.map_reverse, Tree.totalSize_reverse, map_tree_children]
  · rwa [map_tree_children]

end Placed

/-- Nodes in the order in which a stack gives them up: the one on top is visited
and makes room for its named children. -/
def walk (lastNext : Bool) : List Placed → List Placed
  | [] => []
  | node :: rest => node :: walk lastNext (node.pushed lastNext ++ rest)
termination_by stack => Tree.totalSize (stack.map Placed.tree)
decreasing_by
  have fewer := node.totalSize_pushed_lt lastNext
  rw [List.map_append, Tree.totalSize_append, List.map_cons, Tree.totalSize]
  omega

end ContextPack.Syntax
