import Usd8Core.Kernel.SettlementTree
import Usd8Core.Chain.System

/-!
# The root commits to the rows

The contract's leaf string and pair hash are the kernel's, so the kernel's paths
verify on chain.  Conversely a proof of any length that reaches the root starts
at a row of the tree: leaves are digests of 32-byte strings and inner nodes of
64-byte strings, and two different strings would otherwise share a digest.
-/

set_option autoImplicit false

namespace Usd8Core.Settlement

open Usd8Core.Lib.ByteWords
open Usd8Core.Lib.CheckedCall
open Usd8Core.Lib.HeapMerkle
open Usd8Core.Kernel
open Usd8Core.Chain (Platform PayoutRow SmallDeployment.platform SmallDeployment.alice
  SmallDeployment.bob settlementLeaf settlementLeafString commutativeKeccak256 merkleProofVerify
  abiEncode abiHead abiTail)

/-- The calldata of a kernel row. -/
def rowCalldata (row : MerkleRow) : PayoutRow :=
  ⟨row.amounts, row.scoreSpent, row.boostedScore, row.eligibleAmount,
    row.eligibleBoosterAmount⟩

/-- The kernel row a claim's calldata spells out. -/
def claimedRow (claimId : Nat) (user : Address) (row : PayoutRow) : MerkleRow :=
  ⟨claimId, user, row.amounts, row.scoreSpent, row.boostedScore, row.eligibleAmount,
    row.eligibleBoosterAmount⟩

/-! ## The two encodings agree -/

theorem settlementLeafString_eq (incidentId claimId : Nat) (user : Address)
    (row : PayoutRow) :
    settlementLeafString incidentId claimId user row =
      encodeWords (leafWords incidentId (claimedRow claimId user row)) := by
  simp [settlementLeafString, abiEncode, abiHead, abiTail, leafWords, claimedRow]

theorem settlementLeaf_eq (platform : Platform) (incidentId claimId : Nat) (user : Address)
    (row : PayoutRow) :
    settlementLeaf platform incidentId claimId user row =
      leafDigest platform.keccak256 incidentId (claimedRow claimId user row) := by
  rw [settlementLeaf, settlementLeafString_eq, leafDigest]

theorem commutativeKeccak256_eq (platform : Platform) (a b : Hash) :
    commutativeKeccak256 platform a b = standardNodeHash platform.keccak256 a b := by
  unfold commutativeKeccak256 standardNodeHash nodeString
  by_cases below : a.val < b.val
  · rw [if_pos below, if_pos (Nat.le_of_lt below)]
  · rw [if_neg below]
    by_cases same : a.val = b.val
    · rw [Hash.ext_val same]
      simp
    · rw [if_neg (by omega)]

/-! ## Completeness -/

section Completeness

variable (keccak256 : List Byte → Hash)

/-- The leaves of the rows in tree order. -/
def treeLeaves (incidentId : Nat) (rows : List MerkleRow) : List (Hash × Nat) :=
  sortLeaves (rows.map fun row => (leafDigest keccak256 incidentId row, row.claimId))

def treeOf (incidentId : Nat) (rows : List MerkleRow) : List Hash :=
  buildTree Hash.zero (standardNodeHash keccak256)
    ((treeLeaves keccak256 incidentId rows).map Prod.fst)

/-- What a completed construction returns. -/
theorem settlementTree_new_ok (incidentId : Nat) (rows : List MerkleRow)
    (tree : SettlementTree) (run : SettlementTree.new keccak256 incidentId rows = .ok tree) :
    rows ≠ [] ∧ (rows.map MerkleRow.claimId).Nodup ∧
      tree.root = (treeOf keccak256 incidentId rows).getD 0 Hash.zero ∧
      tree.proofs = proofsFrom (treeOf keccak256 incidentId rows)
        (treeLeaves keccak256 incidentId rows) := by
  unfold SettlementTree.new at run
  obtain ⟨_, nonempty, run⟩ := (bind_ok_iff _ _ _).mp run
  obtain ⟨leaves, collected, result⟩ := (bind_ok_iff _ _ _).mp run
  obtain ⟨leavesEq, distinct, -⟩ := collectLeaves_ok keccak256 incidentId rows [] leaves collected
  have treeEq := (pure_ok_iff _ _).mp result
  subst leavesEq treeEq
  exact ⟨(revertIf_ok_iff _ _ _).mp nonempty, distinct, rfl, rfl⟩

theorem settlementTree_new_fits (incidentId : Nat) (rows : List MerkleRow)
    (tree : SettlementTree) (run : SettlementTree.new keccak256 incidentId rows = .ok tree) :
    ∀ row ∈ rows, incidentId < uintBound 256 ∧ row.WordsFit := by
  unfold SettlementTree.new at run
  obtain ⟨_, -, run⟩ := (bind_ok_iff _ _ _).mp run
  obtain ⟨leaves, collected, -⟩ := (bind_ok_iff _ _ _).mp run
  exact collectLeaves_fits keccak256 incidentId rows [] leaves collected

theorem settlementTree_new_of_fits (incidentId : Nat) (rows : List MerkleRow)
    (nonempty : rows ≠ []) (incidentFits : incidentId < uintBound 256)
    (fits : ∀ row ∈ rows, row.Fits) (distinct : (rows.map MerkleRow.claimId).Nodup) :
    ∃ tree, SettlementTree.new keccak256 incidentId rows = .ok tree := by
  obtain ⟨leaves, collected⟩ := collectLeaves_of_fits keccak256 incidentId incidentFits rows []
    fits distinct (by simp)
  unfold SettlementTree.new
  rw [revertIf, if_neg nonempty, collected]
  exact ⟨_, rfl⟩

theorem treeLeaves_perm (incidentId : Nat) (rows : List MerkleRow) :
    (treeLeaves keccak256 incidentId rows).Perm
      (rows.map fun row => (leafDigest keccak256 incidentId row, row.claimId)) :=
  List.perm_insertionSort _ _

/-- Every row has a place among the sorted leaves. -/
theorem treeLeaves_position (incidentId : Nat) (rows : List MerkleRow) (row : MerkleRow)
    (member : row ∈ rows) :
    ∃ position : Nat, (treeLeaves keccak256 incidentId rows)[position]? =
      some (leafDigest keccak256 incidentId row, row.claimId) := by
  have inSorted : (leafDigest keccak256 incidentId row, row.claimId) ∈
      treeLeaves keccak256 incidentId rows := by
    rw [(treeLeaves_perm keccak256 incidentId rows).mem_iff]
    exact List.mem_map.mpr ⟨row, member, rfl⟩
  exact List.mem_iff_getElem?.mp inSorted

theorem treeLeaves_claimIds_nodup (incidentId : Nat) (rows : List MerkleRow)
    (distinct : (rows.map MerkleRow.claimId).Nodup) :
    ((treeLeaves keccak256 incidentId rows).map Prod.snd).Nodup := by
  have permuted := (treeLeaves_perm keccak256 incidentId rows).map Prod.snd
  rw [List.map_map] at permuted
  exact permuted.nodup_iff.mpr distinct

/-- With distinct keys an entry is what its key finds. -/
theorem lookup_of_mem {α β : Type} [BEq α] [LawfulBEq α] (entries : List (α × β)) (key : α)
    (value : β) (distinct : (entries.map Prod.fst).Nodup) (member : (key, value) ∈ entries) :
    entries.lookup key = some value := by
  obtain ⟨before, later, split⟩ := List.append_of_mem member
  apply List.lookup_eq_some_iff.mpr
  refine ⟨before, later, split, ?_⟩
  intro entry entryMember
  rw [split, List.map_append, List.nodup_append] at distinct
  have differs := distinct.2.2 entry.1 (List.mem_map.mpr ⟨entry, entryMember, rfl⟩) key
    (by simp)
  simpa [bne_iff_ne] using Ne.symm differs

/-- The proofs are stored under the claim ids of the leaves. -/
theorem proofsFrom_keys (tree : List Hash) (leaves : List (Hash × Nat)) :
    (proofsFrom tree leaves).map Prod.fst = leaves.map Prod.snd := by
  rw [proofsFrom, List.map_map]
  change leaves.zipIdx.map (Prod.snd ∘ Prod.fst) = _
  rw [← List.map_map, List.zipIdx_map_fst]

/-- The proof stored for the leaf at a sorted position. -/
theorem proof_of_position (incidentId : Nat) (rows : List MerkleRow) (tree : SettlementTree)
    (run : SettlementTree.new keccak256 incidentId rows = .ok tree) (position : Nat)
    (leaf : Hash) (claimId : Nat)
    (found : (treeLeaves keccak256 incidentId rows)[position]? = some (leaf, claimId)) :
    tree.proof claimId = some (authPath Hash.zero (treeOf keccak256 incidentId rows)
      ((treeOf keccak256 incidentId rows).length - 1 - position)) := by
  obtain ⟨-, distinct, -, proofsEq⟩ := settlementTree_new_ok keccak256 incidentId rows tree run
  rw [SettlementTree.proof, proofsEq]
  apply lookup_of_mem
  · rw [proofsFrom_keys]
    exact treeLeaves_claimIds_nodup keccak256 incidentId rows distinct
  · apply List.mem_map.mpr
    refine ⟨((leaf, claimId), position), ?_, rfl⟩
    exact List.mk_mem_zipIdx_iff_getElem?.mpr found

/-- The stored proof of every row folds from its digest to the root. -/
theorem row_proof_folds (incidentId : Nat) (rows : List MerkleRow) (tree : SettlementTree)
    (run : SettlementTree.new keccak256 incidentId rows = .ok tree) (row : MerkleRow)
    (member : row ∈ rows) :
    ∃ proof, tree.proof row.claimId = some proof ∧
      foldProof (standardNodeHash keccak256) (leafDigest keccak256 incidentId row) proof =
        tree.root := by
  obtain ⟨position, found⟩ := treeLeaves_position keccak256 incidentId rows row member
  have stored := proof_of_position keccak256 incidentId rows tree run position _ _ found
  obtain ⟨-, -, rootEq, -⟩ := settlementTree_new_ok keccak256 incidentId rows tree run
  refine ⟨_, stored, ?_⟩
  have heap := buildTree_isHeap Hash.zero (standardNodeHash keccak256)
    ((treeLeaves keccak256 incidentId rows).map Prod.fst)
  have atPosition : ((treeLeaves keccak256 incidentId rows).map Prod.fst)[position]? =
      some (leafDigest keccak256 incidentId row) := by
    rw [List.getElem?_map, found]
    rfl
  have inside := (List.getElem?_eq_some_iff.mp atPosition).1
  have folded := foldProof_authPath Hash.zero (standardNodeHash keccak256)
    (standardNodeHash_comm keccak256) _ _ heap position inside
  rw [List.getD_eq_getElem?_getD, atPosition] at folded
  rw [rootEq]
  exact folded

end Completeness

/-! ## Soundness -/

section Soundness

/-- The strings hashed while the tree of the rows is built. -/
def treeStrings (keccak256 : List Byte → Hash) (incidentId : Nat) (rows : List MerkleRow) :
    List (List Byte) :=
  (rows.map fun row => encodeWords (leafWords incidentId row)) ++
    (rows.map fun row => (keccak256 (encodeWords (leafWords incidentId row))).bytes) ++
    innerPreimages Hash.zero nodeString rows.length (treeOf keccak256 incidentId rows)

/-- The strings hashed while a claimed row is checked against a proof. -/
def claimStrings (keccak256 : List Byte → Hash) (incidentId : Nat) (row : MerkleRow)
    (proof : List Hash) : List (List Byte) :=
  [encodeWords (leafWords incidentId row),
    (keccak256 (encodeWords (leafWords incidentId row))).bytes] ++
    foldPreimages keccak256 nodeString (leafDigest keccak256 incidentId row) proof

/-- No two of the strings share a digest. -/
def CollisionFree (keccak256 : List Byte → Hash) (strings : List (List Byte)) : Prop :=
  Set.InjOn keccak256 { string | string ∈ strings }

/-- Distinct digests, and no further string hashed. -/
theorem CollisionFree.of_nodup (keccak256 : List Byte → Hash) (strings others : List (List Byte))
    (distinct : (strings.map keccak256).Nodup) (known : ∀ string ∈ others, string ∈ strings) :
    CollisionFree keccak256 (strings ++ others) := by
  have listed : ∀ string ∈ strings ++ others, string ∈ strings := by
    intro string member
    rcases List.mem_append.mp member with first | second
    · exact first
    · exact known string second
  intro a aMember b bMember same
  exact List.inj_on_of_nodup_map distinct (listed a aMember) (listed b bMember) same

/-- A proof that reaches the root starts at one of the rows. -/
theorem proof_starts_at_row (keccak256 : List Byte → Hash) (incidentId : Nat)
    (rows : List MerkleRow) (tree : SettlementTree)
    (run : SettlementTree.new keccak256 incidentId rows = .ok tree)
    (claimedIncident : Nat) (claimed : MerkleRow) (proof : List Hash)
    (claimedFits : ∀ word ∈ leafWords claimedIncident claimed, word < uintBound 256)
    (collisionFree : CollisionFree keccak256
      (treeStrings keccak256 incidentId rows ++
        claimStrings keccak256 claimedIncident claimed proof))
    (reached : foldProof (standardNodeHash keccak256)
      (leafDigest keccak256 claimedIncident claimed) proof = tree.root) :
    claimedIncident = incidentId ∧ claimed ∈ rows := by
  obtain ⟨nonempty, -, rootEq, -⟩ := settlementTree_new_ok keccak256 incidentId rows tree run
  have permuted := treeLeaves_perm keccak256 incidentId rows
  have leafCount : ((treeLeaves keccak256 incidentId rows).map Prod.fst).length =
      rows.length := by
    rw [List.length_map, permuted.length_eq, List.length_map]
  have heap := buildTree_isHeap Hash.zero (standardNodeHash keccak256)
    ((treeLeaves keccak256 incidentId rows).map Prod.fst)
  have rowDigest : ∀ leaf ∈ (treeLeaves keccak256 incidentId rows).map Prod.fst,
      ∃ row ∈ rows, leaf = leafDigest keccak256 incidentId row := by
    intro leaf member
    obtain ⟨entry, entryMember, rfl⟩ := List.mem_map.mp member
    obtain ⟨row, rowMember, rfl⟩ := List.mem_map.mp (permuted.mem_iff.mp entryMember)
    exact ⟨row, rowMember, rfl⟩
  have positive : 0 < rows.length := List.length_pos_iff.mpr nonempty
  have rootInside : 0 < (treeOf keccak256 incidentId rows).length := by
    rw [treeOf, heap.length_eq, leafCount]
    omega
  have atLeaf : leafDigest keccak256 claimedIncident claimed ∈
      (treeLeaves keccak256 incidentId rows).map Prod.fst := by
    refine foldProof_reaches_leaf Hash.zero keccak256 nodeString _ _ heap nodeString_child
      (fun string => string.length = 32) ?_ _ collisionFree ?_ ?_
      (keccak256 (encodeWords (leafWords claimedIncident claimed))).bytes ?_ (by simp)
      proof 0 rootInside ?_ (reached.trans rootEq)
    · intro string a b short same
      have long := nodeString_length a b
      rw [← same] at long
      omega
    · intro string member
      rw [leafCount] at member
      simp only [treeStrings, Set.mem_ofPred_eq, List.mem_append]
      exact Or.inl (Or.inr member)
    · intro leaf member
      obtain ⟨row, rowMember, rfl⟩ := rowDigest leaf member
      refine ⟨(keccak256 (encodeWords (leafWords incidentId row))).bytes, ?_, by simp, rfl⟩
      simp only [treeStrings, Set.mem_ofPred_eq, List.mem_append]
      exact Or.inl (Or.inl (Or.inr (List.mem_map.mpr ⟨row, rowMember, rfl⟩)))
    · simp [claimStrings]
    · intro string member
      simp only [claimStrings, Set.mem_ofPred_eq, List.mem_append]
      exact Or.inr (Or.inr member)
  obtain ⟨row, rowMember, sameDigest⟩ := rowDigest _ atLeaf
  have outerRow : (keccak256 (encodeWords (leafWords incidentId row))).bytes ∈
      { string | string ∈ treeStrings keccak256 incidentId rows ++
        claimStrings keccak256 claimedIncident claimed proof } := by
    simp only [treeStrings, Set.mem_ofPred_eq, List.mem_append]
    exact Or.inl (Or.inl (Or.inr (List.mem_map.mpr ⟨row, rowMember, rfl⟩)))
  have innerRow : encodeWords (leafWords incidentId row) ∈
      { string | string ∈ treeStrings keccak256 incidentId rows ++
        claimStrings keccak256 claimedIncident claimed proof } := by
    simp only [treeStrings, Set.mem_ofPred_eq, List.mem_append]
    exact Or.inl (Or.inl (Or.inl (List.mem_map.mpr ⟨row, rowMember, rfl⟩)))
  have sameOuter := collisionFree (by simp [claimStrings]) outerRow sameDigest
  have sameInner := collisionFree (by simp [claimStrings]) innerRow
    (Hash.bytes_injective sameOuter)
  obtain ⟨incidentFits, rowFits⟩ :=
    settlementTree_new_fits keccak256 incidentId rows tree run row rowMember
  have sameWords := encodeWords_injective _ _ claimedFits
    (leafWords_fit incidentId row incidentFits rowFits) sameInner
  obtain ⟨sameIncident, sameRow⟩ := leafWords_injective _ _ _ _ sameWords
  subst sameRow
  exact ⟨sameIncident, rowMember⟩

end Soundness

/-- The tree of any fitting rows with distinct ids exists, every listed row
verifies with its stored proof through the contract's own leaf and pair hash, and
only listed rows verify. -/
theorem settlement_tree_commits_rows (platform : Platform) (incidentId : Nat)
    (rows : List MerkleRow) (nonempty : rows ≠ []) (incidentFits : incidentId < uintBound 256)
    (fits : ∀ row ∈ rows, row.Fits) (distinct : (rows.map MerkleRow.claimId).Nodup) :
    ∃ tree, SettlementTree.new platform.keccak256 incidentId rows = .ok tree ∧
      (∀ row ∈ rows, ∃ proof, tree.proof row.claimId = some proof ∧
        foldProof (commutativeKeccak256 platform)
          (settlementLeaf platform incidentId row.claimId row.user (rowCalldata row)) proof =
            tree.root) ∧
      ∀ (claimedIncident claimId : Nat) (user : Address) (row : PayoutRow)
        (proof : List Hash),
        claimedIncident < uintBound 256 → (claimedRow claimId user row).WordsFit →
        CollisionFree platform.keccak256
          (treeStrings platform.keccak256 incidentId rows ++
            claimStrings platform.keccak256 claimedIncident (claimedRow claimId user row)
              proof) →
        foldProof (commutativeKeccak256 platform)
          (settlementLeaf platform claimedIncident claimId user row) proof = tree.root →
        claimedIncident = incidentId ∧ ∃ listed ∈ rows, claimId = listed.claimId ∧
          user = listed.user ∧ row = rowCalldata listed := by
  obtain ⟨tree, run⟩ := settlementTree_new_of_fits platform.keccak256 incidentId rows nonempty
    incidentFits fits distinct
  have sameCombine : commutativeKeccak256 platform = standardNodeHash platform.keccak256 := by
    funext a b
    exact commutativeKeccak256_eq platform a b
  refine ⟨tree, run, ?_, ?_⟩
  · intro row member
    obtain ⟨proof, stored, folded⟩ :=
      row_proof_folds platform.keccak256 incidentId rows tree run row member
    refine ⟨proof, stored, ?_⟩
    rw [settlementLeaf_eq, sameCombine]
    exact folded
  · intro claimedIncident claimId user row proof claimedIncidentFits claimedFits
      collisionFree reached
    rw [settlementLeaf_eq, sameCombine] at reached
    obtain ⟨sameIncident, listed⟩ := proof_starts_at_row platform.keccak256 incidentId rows tree
      run claimedIncident _ proof (leafWords_fit _ _ claimedIncidentFits claimedFits)
      collisionFree reached
    exact ⟨sameIncident, _, listed, rfl, rfl, rfl⟩

/-- The two rows of the small deployment's settlement. -/
def smallRows : List MerkleRow :=
  [⟨1, SmallDeployment.alice, [234], 90, 99, 400, 2⟩, ⟨2, SmallDeployment.bob, [165], 70, 70, 300, 0⟩]

theorem smallRows_committed :
    ∃ tree, SettlementTree.new SmallDeployment.platform.keccak256 1 smallRows = .ok tree ∧
      ∀ row ∈ smallRows, ∃ proof, tree.proof row.claimId = some proof ∧
        foldProof (commutativeKeccak256 SmallDeployment.platform)
          (settlementLeaf SmallDeployment.platform 1 row.claimId row.user (rowCalldata row))
            proof = tree.root := by
  have fits : ∀ row ∈ smallRows, row.Fits := by
    intro row member
    simp only [smallRows, List.mem_cons, List.not_mem_nil, or_false] at member
    rcases member with rfl | rfl
    · exact ⟨⟨by decide, by decide, by decide, by decide, by decide, by decide, by decide⟩,
        by decide⟩
    · exact ⟨⟨by decide, by decide, by decide, by decide, by decide, by decide, by decide⟩,
        by decide⟩
  obtain ⟨tree, run, complete, -⟩ := settlement_tree_commits_rows SmallDeployment.platform 1
    smallRows (by decide) (by decide) fits (by decide)
  exact ⟨tree, run, complete⟩

end Usd8Core.Settlement
