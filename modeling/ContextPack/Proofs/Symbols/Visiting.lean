import ContextPack.Proofs.Text.Order
import ContextPack.Symbols.Collect

namespace ContextPack.Syntax

/-!
# Visiting the nodes of a syntax tree

A walk takes nodes from a stack of those that still have to be visited.  Whichever of them
comes next, in the end exactly those nodes are visited that are reached from the start through
named children.
-/

/-! ## Reaching nodes -/

/-- The nodes that are reached from one through named children. -/
inductive Reaches : Placed → Placed → Prop where
  | here (node : Placed) : Reaches node node
  | deeper {start child node : Placed} :
      child ∈ start.children → Reaches child node → Reaches start node

theorem reaches_iff (start node : Placed) :
    Reaches start node ↔ node = start ∨ ∃ child ∈ start.children, Reaches child node := by
  constructor
  · rintro (_ | ⟨isChild, reaches⟩)
    · exact Or.inl rfl
    · exact Or.inr ⟨_, isChild, reaches⟩
  · rintro (rfl | ⟨child, isChild, reaches⟩)
    · exact .here _
    · exact .deeper isChild reaches

/-! ## Orders of visiting -/

/-- What becomes of the nodes that still have to be visited: any of them may be next, and
its children join the others. -/
inductive Visits : List Placed → List Placed → Prop where
  | done : Visits [] []
  | next {pending others grown order : List Placed} {node : Placed} :
      pending.Perm (node :: others) → grown.Perm (node.children ++ others) →
        Visits grown order → Visits pending (node :: order)

/-- However the next node is chosen, those are visited that are reached. -/
theorem Visits.mem_iff {pending order : List Placed} (visits : Visits pending order)
    (node : Placed) : node ∈ order ↔ ∃ start ∈ pending, Reaches start node := by
  induction visits with
  | done => simp
  | @next pending others grown order first chosen joined _ inductionHypothesis =>
      calc
        node ∈ first :: order ↔ node = first ∨ ∃ start ∈ grown, Reaches start node := by
          rw [List.mem_cons, inductionHypothesis]
        _ ↔ node = first ∨ (∃ child ∈ first.children, Reaches child node) ∨
              ∃ start ∈ others, Reaches start node := by
          simp only [joined.mem_iff, List.mem_append, or_and_right, exists_or]
        _ ↔ Reaches first node ∨ ∃ start ∈ others, Reaches start node := by
          rw [reaches_iff first, or_assoc]
        _ ↔ ∃ start ∈ pending, Reaches start node := by
          simp only [chosen.mem_iff, List.mem_cons, or_and_right, exists_or, exists_eq_left]

theorem Placed.pushed_perm (lastNext : Bool) (node : Placed) :
    (node.pushed lastNext).Perm node.children := by
  rw [pushed]
  split
  · exact List.reverse_perm _
  · exact .refl _

/-- The stack gives up its nodes in one such order, whichever child comes on top. -/
theorem visits_walk (lastNext : Bool) (stack : List Placed) :
    Visits stack (walk lastNext stack) := by
  fun_induction walk lastNext stack with
  | case1 => exact .done
  | case2 node rest inductionHypothesis =>
      exact .next (.refl _) ((node.pushed_perm lastNext).append_right rest) inductionHypothesis

theorem mem_walk_iff (lastNext : Bool) (start node : Placed) :
    node ∈ walk lastNext [start] ↔ Reaches start node := by
  rw [(visits_walk lastNext [start]).mem_iff]
  simp

end ContextPack.Syntax

namespace ContextPack.Symbols

/-! ## The level of the module -/

/-- On the way up to a root there are only statements that keep the level. -/
theorem isTopLevel_iff (above : List String) :
    isTopLevel above = true ↔ ∃ wrappers root outside, above = wrappers ++ root :: outside ∧
      root ∈ rootKinds ∧ ∀ kind ∈ wrappers, kind ∈ bindingWrappers := by
  constructor
  · intro atTop
    induction above with
    | nil => cases atTop
    | cons kind above inductionHypothesis =>
        rw [isTopLevel] at atTop
        split at atTop
        · next isRoot => exact ⟨[], kind, above, rfl, List.contains_iff_mem.mp isRoot, nofun⟩
        · split at atTop
          · next isWrapper =>
              rcases inductionHypothesis atTop with ⟨wrappers, root, outside, rfl, isRoot, wrap⟩
              exact ⟨kind :: wrappers, root, outside, rfl, isRoot,
                List.forall_mem_cons.mpr ⟨List.contains_iff_mem.mp isWrapper, wrap⟩⟩
          · cases atTop
  · rintro ⟨wrappers, root, outside, rfl, isRoot, wrap⟩
    induction wrappers with
    | nil => rw [List.nil_append, isTopLevel, if_pos (List.contains_iff_mem.mpr isRoot)]
    | cons kind wrappers inductionHypothesis =>
        rcases List.forall_mem_cons.mp wrap with ⟨isWrapper, others⟩
        rw [List.cons_append, isTopLevel, if_pos (List.contains_iff_mem.mpr isWrapper),
          inductionHypothesis others, ite_self]

end ContextPack.Symbols
