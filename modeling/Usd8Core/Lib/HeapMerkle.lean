import Mathlib.Data.List.GetD
import Mathlib.Data.List.Induction
import Mathlib.Data.Set.Function
import Mathlib.Tactic.Common

/-!
# Merkle trees stored as implicit arrays

A tree over `n` leaves is an array of `2 n - 1` nodes whose children sit at
`2 i + 1` and `2 i + 2`; the leaves fill the array from its end, so they lie at
two depths unless `n` is a power of two.  An authentication path climbs from an
index to the root.  Completeness is index arithmetic; soundness charges a forged
path to a collision among the strings that were hashed.
-/

set_option autoImplicit false

namespace Usd8Core.Lib.HeapMerkle

section Build

variable {H : Type}

/-- Write the leaves from the last slot backwards, `offset` leaves being placed. -/
def placeLeaves (offset : Nat) : List H → List H → List H
  | [], tree => tree
  | leaf :: rest, tree =>
      placeLeaves (offset + 1) rest (tree.set (tree.length - 1 - offset) leaf)

/-- Write the internal nodes below `count`, the last one first. -/
def combineNodes (zero : H) (combine : H → H → H) : Nat → List H → List H
  | 0, tree => tree
  | index + 1, tree =>
      combineNodes zero combine index
        (tree.set index (combine (tree.getD (2 * index + 1) zero)
          (tree.getD (2 * index + 2) zero)))

def buildTree (zero : H) (combine : H → H → H) (leaves : List H) : List H :=
  combineNodes zero combine (leaves.length - 1)
    (placeLeaves 0 leaves (List.replicate (2 * leaves.length - 1) zero))

theorem placeLeaves_length : ∀ (leaves : List H) (offset : Nat) (tree : List H),
    (placeLeaves offset leaves tree).length = tree.length := by
  intro leaves
  induction leaves with
  | nil => intro offset tree; rfl
  | cons leaf rest ih => intro offset tree; rw [placeLeaves, ih, List.length_set]

theorem combineNodes_length (zero : H) (combine : H → H → H) :
    ∀ (count : Nat) (tree : List H),
      (combineNodes zero combine count tree).length = tree.length := by
  intro count
  induction count with
  | zero => intro tree; rfl
  | succ count ih => intro tree; rw [combineNodes, ih, List.length_set]

theorem getD_set (tree : List H) (zero value : H) (written read : Nat)
    (inside : written < tree.length) :
    (tree.set written value).getD read zero =
      if written = read then value else tree.getD read zero := by
  by_cases same : written = read
  · subst same
    simp [List.getD_eq_getElem?_getD, inside]
  · simp [List.getD_eq_getElem?_getD, List.getElem?_set_ne same, same]

/-- Slots outside the placed range keep their contents. -/
theorem placeLeaves_frame (zero : H) : ∀ (leaves : List H) (offset : Nat) (tree : List H)
    (read : Nat), offset + leaves.length ≤ tree.length →
    (read + offset + leaves.length < tree.length ∨ tree.length ≤ read + offset) →
    (placeLeaves offset leaves tree).getD read zero = tree.getD read zero := by
  intro leaves
  induction leaves with
  | nil => intro offset tree read _ _; rfl
  | cons leaf rest ih =>
      intro offset tree read room outside
      simp only [List.length_cons] at room outside
      rw [placeLeaves, ih (offset + 1) _ read]
      · rw [getD_set _ _ _ _ _ (by omega), if_neg (by omega)]
      · rw [List.length_set]
        omega
      · rw [List.length_set]
        omega

theorem placeLeaves_get (zero : H) : ∀ (leaves : List H) (offset : Nat) (tree : List H)
    (position : Nat), offset + leaves.length ≤ tree.length → position < leaves.length →
    (placeLeaves offset leaves tree).getD (tree.length - 1 - offset - position) zero =
      leaves.getD position zero := by
  intro leaves
  induction leaves with
  | nil => intro offset tree position _ inside; simp at inside
  | cons leaf rest ih =>
      intro offset tree position room inside
      simp only [List.length_cons] at room inside
      rw [placeLeaves]
      cases position with
      | zero =>
          rw [placeLeaves_frame]
          · rw [getD_set _ _ _ _ _ (by omega), if_pos (by omega)]
            rfl
          · rw [List.length_set]
            omega
          · rw [List.length_set]
            omega
      | succ position =>
          have placed := ih (offset + 1) (tree.set (tree.length - 1 - offset) leaf) position
            (by rw [List.length_set]; omega) (by omega)
          rw [List.length_set] at placed
          have slot : tree.length - 1 - offset - (position + 1) =
              tree.length - 1 - (offset + 1) - position := by omega
          rw [slot, placed]
          rfl

theorem combineNodes_frame (zero : H) (combine : H → H → H) :
    ∀ (count : Nat) (tree : List H) (read : Nat), count ≤ tree.length → count ≤ read →
      (combineNodes zero combine count tree).getD read zero = tree.getD read zero := by
  intro count
  induction count with
  | zero => intro tree read _ _; rfl
  | succ count ih =>
      intro tree read room outside
      rw [combineNodes, ih _ read (by rw [List.length_set]; omega) (by omega),
        getD_set _ _ _ _ _ (by omega), if_neg (by omega)]

theorem combineNodes_inner (zero : H) (combine : H → H → H) :
    ∀ (count : Nat) (tree : List H), count ≤ tree.length → ∀ index, index < count →
      (combineNodes zero combine count tree).getD index zero =
        combine ((combineNodes zero combine count tree).getD (2 * index + 1) zero)
          ((combineNodes zero combine count tree).getD (2 * index + 2) zero) := by
  intro count
  induction count with
  | zero => intro tree _ index inside; omega
  | succ count ih =>
      intro tree room index inside
      rw [combineNodes]
      by_cases last : index = count
      · -- the children were written before this slot and are not touched after it
        subst last
        rw [combineNodes_frame _ _ _ _ _ (by rw [List.length_set]; omega) (by omega),
          combineNodes_frame _ _ _ _ _ (by rw [List.length_set]; omega) (by omega),
          combineNodes_frame _ _ _ _ _ (by rw [List.length_set]; omega) (by omega),
          getD_set _ _ _ _ _ (by omega), if_pos rfl,
          getD_set _ _ _ _ _ (by omega), if_neg (by omega),
          getD_set _ _ _ _ _ (by omega), if_neg (by omega)]
      · exact ih _ (by rw [List.length_set]; omega) index (by omega)

end Build

/-! ## Heap-shaped arrays -/

section Heap

variable {H : Type}

/-- `tree` holds `leaves` in reverse at its end and combines children elsewhere. -/
structure IsHeap (zero : H) (combine : H → H → H) (leaves tree : List H) : Prop where
  length_eq : tree.length = 2 * leaves.length - 1
  inner : ∀ index, index + 1 < leaves.length →
    tree.getD index zero =
      combine (tree.getD (2 * index + 1) zero) (tree.getD (2 * index + 2) zero)
  leaf : ∀ position, position < leaves.length →
    tree.getD (tree.length - 1 - position) zero = leaves.getD position zero

theorem buildTree_isHeap (zero : H) (combine : H → H → H) (leaves : List H) :
    IsHeap zero combine leaves (buildTree zero combine leaves) := by
  have placedLength : (placeLeaves 0 leaves
      (List.replicate (2 * leaves.length - 1) zero)).length = 2 * leaves.length - 1 := by
    rw [placeLeaves_length, List.length_replicate]
  have builtLength : (buildTree zero combine leaves).length = 2 * leaves.length - 1 := by
    rw [buildTree, combineNodes_length, placedLength]
  refine ⟨builtLength, ?_, ?_⟩
  · intro index inside
    exact combineNodes_inner zero combine _ _ (by omega) index (by omega)
  · intro position inside
    rw [builtLength, buildTree,
      combineNodes_frame _ _ _ _ _ (by omega) (by omega)]
    have placed := placeLeaves_get zero leaves 0
      (List.replicate (2 * leaves.length - 1) zero) position
      (by rw [List.length_replicate]; omega) inside
    simpa [List.length_replicate] using placed

def siblingIndex (index : Nat) : Nat :=
  if index % 2 = 0 then index - 1 else index + 1

/-- The siblings met on the way from `index` to the root.  Each step at least
halves the index, so `index` itself is enough fuel. -/
def authPathFrom (zero : H) (tree : List H) : Nat → Nat → List H
  | 0, _ => []
  | fuel + 1, index =>
      if index > 0 then
        tree.getD (siblingIndex index) zero ::
          authPathFrom zero tree fuel ((index - 1) / 2)
      else []

def authPath (zero : H) (tree : List H) (index : Nat) : List H :=
  authPathFrom zero tree index index

/-- Fold a proof from a leaf towards the root. -/
def foldProof (combine : H → H → H) (leaf : H) (proof : List H) : H :=
  proof.foldl combine leaf

theorem foldProof_concat (combine : H → H → H) (leaf : H) (proof : List H) (last : H) :
    foldProof combine leaf (proof ++ [last]) =
      combine (foldProof combine leaf proof) last := by
  simp [foldProof]

/-- A node and its sibling combine to their parent, whichever of the two is left. -/
theorem parent_eq_combine_sibling (zero : H) (combine : H → H → H)
    (commutes : ∀ a b, combine a b = combine b a) (leaves tree : List H)
    (heap : IsHeap zero combine leaves tree) (index : Nat) (positive : 0 < index)
    (inside : index < tree.length) :
    tree.getD ((index - 1) / 2) zero =
      combine (tree.getD index zero) (tree.getD (siblingIndex index) zero) := by
  have lengthEq := heap.length_eq
  have parent := heap.inner ((index - 1) / 2) (by omega)
  unfold siblingIndex
  by_cases even : index % 2 = 0
  · have left : 2 * ((index - 1) / 2) + 1 = index - 1 := by omega
    have right : 2 * ((index - 1) / 2) + 2 = index := by omega
    rw [left, right] at parent
    rw [if_pos even, parent, commutes]
  · have left : 2 * ((index - 1) / 2) + 1 = index := by omega
    have right : 2 * ((index - 1) / 2) + 2 = index + 1 := by omega
    rw [left, right] at parent
    rw [if_neg even, parent]

theorem foldProof_authPathFrom (zero : H) (combine : H → H → H)
    (commutes : ∀ a b, combine a b = combine b a) (leaves tree : List H)
    (heap : IsHeap zero combine leaves tree) :
    ∀ (fuel index : Nat), index ≤ fuel → index < tree.length →
      foldProof combine (tree.getD index zero) (authPathFrom zero tree fuel index) =
        tree.getD 0 zero := by
  intro fuel
  induction fuel with
  | zero =>
      intro index enough _
      have indexZero : index = 0 := by omega
      subst indexZero
      rfl
  | succ fuel ih =>
      intro index enough inside
      rw [authPathFrom]
      by_cases positive : index > 0
      · rw [if_pos positive]
        have climbed := ih ((index - 1) / 2) (by omega) (by omega)
        rw [parent_eq_combine_sibling zero combine commutes leaves tree heap index positive
          inside] at climbed
        exact climbed
      · have indexZero : index = 0 := by omega
        subst indexZero
        rfl

/-- Completeness: the generated path of every leaf folds to the root. -/
theorem foldProof_authPath (zero : H) (combine : H → H → H)
    (commutes : ∀ a b, combine a b = combine b a) (leaves tree : List H)
    (heap : IsHeap zero combine leaves tree) (position : Nat)
    (inside : position < leaves.length) :
    foldProof combine (leaves.getD position zero)
        (authPath zero tree (tree.length - 1 - position)) = tree.getD 0 zero := by
  have lengthEq := heap.length_eq
  rw [← heap.leaf position inside]
  exact foldProof_authPathFrom zero combine commutes leaves tree heap _ _ le_rfl (by omega)

end Heap

/-! ## Soundness from collision freedom on the hashed strings -/

section Soundness

variable {X H : Type}

/-- The strings hashed while a proof is folded from a leaf digest. -/
def foldPreimages (hash : X → H) (node : H → H → X) : H → List H → List X
  | _, [] => []
  | current, sibling :: rest =>
      node current sibling ::
        foldPreimages hash node (hash (node current sibling)) rest

theorem foldPreimages_concat (hash : X → H) (node : H → H → X) :
    ∀ (proof : List H) (leaf last : H),
      foldPreimages hash node leaf (proof ++ [last]) =
        foldPreimages hash node leaf proof ++
          [node (foldProof (fun a b => hash (node a b)) leaf proof) last] := by
  intro proof
  induction proof with
  | nil => intro leaf last; rfl
  | cons sibling rest ih =>
      intro leaf last
      rw [List.cons_append, foldPreimages, ih, foldPreimages, List.cons_append]
      rfl

/-- The strings hashed for the internal nodes of a tree. -/
def innerPreimages (zero : H) (node : H → H → X) (count : Nat) (tree : List H) : List X :=
  (List.range (count - 1)).map fun index =>
    node (tree.getD (2 * index + 1) zero) (tree.getD (2 * index + 2) zero)

/-- A proof of any length that folds to a node of the tree starts at a leaf of the
tree, unless two different hashed strings have one digest.  Leaf strings must be
told apart from node strings; a node string determines its unordered children. -/
theorem foldProof_reaches_leaf (zero : H) (hash : X → H) (node : H → H → X)
    (leaves tree : List H)
    (heap : IsHeap zero (fun a b => hash (node a b)) leaves tree)
    (children : ∀ a b c d, node a b = node c d → a = c ∨ a = d)
    (isLeafString : X → Prop)
    (separated : ∀ string a b, isLeafString string → string ≠ node a b)
    (hashed : Set X) (collisionFree : Set.InjOn hash hashed)
    (innerHashed : ∀ string ∈ innerPreimages zero node leaves.length tree, string ∈ hashed)
    (leafStrings : ∀ leaf ∈ leaves, ∃ string ∈ hashed,
      isLeafString string ∧ hash string = leaf)
    (start : X) (startHashed : start ∈ hashed) (startLeaf : isLeafString start) :
    ∀ (proof : List H) (index : Nat), index < tree.length →
      (∀ string ∈ foldPreimages hash node (hash start) proof, string ∈ hashed) →
      foldProof (fun a b => hash (node a b)) (hash start) proof = tree.getD index zero →
      hash start ∈ leaves := by
  have lengthEq := heap.length_eq
  have leafSlot : ∀ index, index < tree.length → ¬ index + 1 < leaves.length →
      tree.getD index zero ∈ leaves := by
    intro index inside outer
    have slot := heap.leaf (tree.length - 1 - index) (by omega)
    have position : tree.length - 1 - (tree.length - 1 - index) = index := by omega
    rw [position] at slot
    rw [slot, List.getD_eq_getElem _ _ (by omega)]
    exact List.getElem_mem _
  have innerMember : ∀ index, index + 1 < leaves.length →
      node (tree.getD (2 * index + 1) zero) (tree.getD (2 * index + 2) zero) ∈ hashed := by
    intro index inner
    apply innerHashed
    exact List.mem_map.mpr ⟨index, List.mem_range.mpr (by omega), rfl⟩
  intro proof
  induction proof using List.reverseRecOn with
  | nil =>
      intro index inside _ reached
      by_cases inner : index + 1 < leaves.length
      · exfalso
        rw [heap.inner index inner] at reached
        exact separated start _ _ startLeaf
          (collisionFree startHashed (innerMember index inner) reached)
      · have atLeaf := leafSlot index inside inner
        rw [← reached] at atLeaf
        exact atLeaf
  | append_singleton proof last ih =>
      intro index inside stepsHashed reached
      rw [foldPreimages_concat] at stepsHashed
      have lastHashed := stepsHashed
        (node (foldProof (fun a b => hash (node a b)) (hash start) proof) last) (by simp)
      have earlierHashed : ∀ string ∈ foldPreimages hash node (hash start) proof,
          string ∈ hashed := by
        intro string member
        exact stepsHashed string (by simp [member])
      rw [foldProof_concat] at reached
      by_cases inner : index + 1 < leaves.length
      · rw [heap.inner index inner] at reached
        have sameString := collisionFree lastHashed (innerMember index inner) reached
        rcases children _ _ _ _ sameString with atLeft | atRight
        · exact ih (2 * index + 1) (by omega) earlierHashed atLeft
        · exact ih (2 * index + 2) (by omega) earlierHashed atRight
      · exfalso
        obtain ⟨string, stringHashed, stringLeaf, digest⟩ :=
          leafStrings _ (leafSlot index inside inner)
        exact separated string _ _ stringLeaf
          (collisionFree stringHashed lastHashed (digest.trans reached.symm))

end Soundness

end Usd8Core.Lib.HeapMerkle
