import Mathlib.Algebra.Order.BigOperators.Group.List
import Mathlib.Algebra.Order.Group.Nat
import Mathlib.Logic.Relation
import Mathlib.Tactic.Common
import Usd8Core.Lib.CheckedCall

/-!
# Walking a tree with a stack

A stack holds the nodes that are left.  The top is taken off and visited, and its
children are pushed.  Children are smaller than their parent in total, so the stack
empties; until then the walk is a fold over the nodes of the trees on the stack.
-/

set_option autoImplicit false

namespace Usd8Core.Lib.TreeWalk

open Usd8Core.Lib.CheckedCall

variable {α σ ε : Type}

structure Forest (α : Type) where
  children : α → List α
  shrinks : ∃ size : α → Nat, ∀ node, ((children node).map size).sum < size node

namespace Forest

variable (forest : Forest α)

/-- A measure of the trees, which only termination rests on. -/
noncomputable def size : α → Nat := forest.shrinks.choose

theorem smaller (node : α) : ((forest.children node).map forest.size).sum < forest.size node :=
  forest.shrinks.choose_spec node

theorem size_child_lt {node child : α} (isChild : child ∈ forest.children node) :
    forest.size child < forest.size node :=
  (List.le_sum_of_mem (List.mem_map_of_mem (f := forest.size) isChild)).trans_lt (forest.smaller node)

/-- The nodes of a tree as a stack visits them, the last child first. -/
def nodes (node : α) : List α :=
  node :: (forest.children node).attach.reverse.flatMap fun child => nodes child.1
termination_by forest.size node
decreasing_by exact forest.size_child_lt child.2

theorem nodes_eq (node : α) :
    forest.nodes node = node :: (forest.children node).reverse.flatMap forest.nodes := by
  rw [nodes]
  congr 1
  conv_rhs => rw [← List.attach_map_subtype_val (forest.children node), ← List.map_reverse,
    List.flatMap_map]

/-- The children on top of the stack, the last one first. -/
def pushAll (stack children : List α) : List α := children.reverse ++ stack

/-- The loop over the stack, which an error ends early. -/
def walk (visit : σ → α → Except ε σ) : σ → List α → Except ε σ
  | state, [] => .ok state
  | state, node :: stack => do
      let next ← visit state node
      walk visit next (pushAll stack (forest.children node))
termination_by _ stack => (stack.map forest.size).sum
decreasing_by
  have smaller := forest.smaller node
  simp only [pushAll, List.map_append, List.map_reverse, List.sum_append, List.sum_reverse,
    List.map_cons, List.sum_cons]
  omega

theorem walk_eq_foldlM (visit : σ → α → Except ε σ) (state : σ) (stack : List α) :
    forest.walk visit state stack = (stack.flatMap forest.nodes).foldlM visit state := by
  induction state, stack using walk.induct forest with
  | case1 state => rw [walk, List.flatMap_nil, List.foldlM_nil]; rfl
  | case2 state node stack ih =>
      rw [walk, List.flatMap_cons, nodes_eq, List.cons_append, List.foldlM_cons]
      congr 1
      funext next
      rw [ih next, pushAll, List.flatMap_append]

/-! ## The nodes of a tree -/

/-- The other node is in the tree below the node, or the node itself. -/
abbrev Reaches : α → α → Prop := Relation.ReflTransGen fun node child => child ∈ forest.children node

theorem mem_nodes {node other : α} : other ∈ forest.nodes node ↔ forest.Reaches node other := by
  constructor
  · intro member
    induction node using nodes.induct forest with
    | case1 node ih =>
        rw [nodes_eq, List.mem_cons, List.mem_flatMap] at member
        rcases member with rfl | ⟨child, isChild, below⟩
        · exact .refl
        · exact .head (List.mem_reverse.mp isChild) (ih ⟨child, List.mem_reverse.mp isChild⟩ below)
  · intro reaches
    induction reaches using Relation.ReflTransGen.head_induction_on with
    | refl =>
        rw [nodes_eq]
        exact List.mem_cons_self
    | head isChild below ih =>
        rw [nodes_eq, List.mem_cons, List.mem_flatMap]
        exact .inr ⟨_, List.mem_reverse.mpr isChild, ih⟩

end Forest

/-! ## Visits without a state -/

section Search

variable {visit : Unit → α → Except ε Unit} {items : List α}

theorem foldlM_unit_ok_iff :
    items.foldlM visit () = .ok () ↔ ∀ item ∈ items, visit () item = .ok () := by
  induction items with
  | nil => simp [pure, Except.pure]
  | cons item rest ih =>
      rw [List.foldlM_cons, bind_ok_iff, List.forall_mem_cons, ← ih]
      exact ⟨fun ⟨_, first, others⟩ => ⟨first, others⟩, fun ⟨first, others⟩ => ⟨_, first, others⟩⟩

/-- The visit that ends the walk. -/
theorem exists_of_foldlM_unit_error {error : ε} (ended : items.foldlM visit () = .error error) :
    ∃ item ∈ items, visit () item = .error error := by
  induction items with
  | nil => cases ended
  | cons item rest ih =>
      rw [List.foldlM_cons] at ended
      cases first : visit () item with
      | error reason =>
          rw [first] at ended
          cases ended
          exact ⟨item, by simp, first⟩
      | ok _ =>
          rw [first] at ended
          obtain ⟨found, member, visited⟩ := ih ended
          exact ⟨found, by simp [member], visited⟩

/-- Where each node is passed or ends the walk with the one result, the walk ends with it
exactly when some node does. -/
theorem foldlM_search {found : ε} (decided : ∀ item ∈ items,
      visit () item = .ok () ∨ visit () item = .error found) :
    (items.foldlM visit () = .error found ∧ ∃ item ∈ items, visit () item = .error found) ∨
    (items.foldlM visit () = .ok () ∧ ∀ item ∈ items, visit () item ≠ .error found) := by
  cases walked : items.foldlM visit () with
  | ok _ =>
      refine .inr ⟨rfl, fun item member isFound => ?_⟩
      have passed := foldlM_unit_ok_iff.mp walked item member
      rw [passed] at isFound
      cases isFound
  | error reason =>
      obtain ⟨item, member, ended⟩ := exists_of_foldlM_unit_error walked
      rcases decided item member with passed | isFound
      · rw [passed] at ended
        cases ended
      · rw [isFound] at ended
        cases ended
        exact .inl ⟨rfl, item, member, isFound⟩

end Search

end Usd8Core.Lib.TreeWalk
