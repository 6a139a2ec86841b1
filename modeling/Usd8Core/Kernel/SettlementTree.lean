import Usd8Core.Kernel.KernelData
import Usd8Core.Lib.HeapMerkle
import Mathlib.Data.List.Sort

/-!
# Settlement tree of the kernel

`SettlementTree::new` hashes each payout row twice, sorts the leaf digests,
stores them in reverse at the end of an implicit array and hashes sorted pairs
up to the root.
-/

set_option autoImplicit false

namespace Usd8Core.Kernel

open Usd8Core.Lib.ByteWords
open Usd8Core.Lib.CheckedCall
open Usd8Core.Lib.HeapMerkle

section Tree

variable (keccak256 : List Byte → Hash)

/-- The string hashed first for a leaf. -/
def encodeLeaf (incidentId : Nat) (row : MerkleRow) : Except KernelError (List Byte) := do
  revertIf (usizeBound ≤ row.amounts.length * 32) .uint256Overflow
  let ids ← uint256Words [incidentId, row.claimId]
  let scalars ← uint256Words
    [row.scoreSpent, row.boostedScore, row.eligibleAmount, row.eligibleBoosterAmount]
  let amounts ← uint256Words row.amounts
  pure (ids ++ abiWord row.user ++ usizeWord 256 ++ scalars ++
    usizeWord row.amounts.length ++ amounts)

def standardLeafHash (incidentId : Nat) (row : MerkleRow) : Except KernelError Hash := do
  let encoded ← encodeLeaf incidentId row
  pure (keccak256 (keccak256 encoded).bytes)

/-- The 64 bytes of a sorted pair of digests. -/
def nodeString (a b : Hash) : List Byte :=
  if a.val ≤ b.val then a.bytes ++ b.bytes else b.bytes ++ a.bytes

def standardNodeHash (a b : Hash) : Hash := keccak256 (nodeString a b)

structure SettlementTree where
  root : Hash
  proofs : List (Nat × List Hash)

/-- The first loop of `SettlementTree::new`; `claims` is the set of seen ids. -/
def collectLeaves (incidentId : Nat) (claims : List Nat) :
    List MerkleRow → Except KernelError (List (Hash × Nat))
  | [] => .ok []
  | row :: rest => do
      revertIf (row.claimId ∈ claims) (.duplicateClaim row.claimId)
      let leaf ← standardLeafHash keccak256 incidentId row
      let leaves ← collectLeaves incidentId (row.claimId :: claims) rest
      pure ((leaf, row.claimId) :: leaves)

def sortLeaves (leaves : List (Hash × Nat)) : List (Hash × Nat) :=
  leaves.insertionSort fun first second => first.1.val ≤ second.1.val

/-- The proof of the leaf at each sorted position, under its claim id. -/
def proofsFrom (tree : List Hash) (leaves : List (Hash × Nat)) : List (Nat × List Hash) :=
  leaves.zipIdx.map fun entry =>
    (entry.1.2, authPath Hash.zero tree (tree.length - 1 - entry.2))

def SettlementTree.new (incidentId : Nat) (rows : List MerkleRow) :
    Except KernelError SettlementTree := do
  revertIf (rows = []) .emptyMerkleTree
  let leaves ← collectLeaves keccak256 incidentId [] rows
  let sorted := sortLeaves leaves
  let tree := buildTree Hash.zero (standardNodeHash keccak256) (sorted.map Prod.fst)
  pure { root := tree.getD 0 Hash.zero, proofs := proofsFrom tree sorted }

def SettlementTree.rootHex (tree : SettlementTree) : String := hashHex tree.root

def SettlementTree.proof (tree : SettlementTree) (claimId : Nat) : Option (List Hash) :=
  tree.proofs.lookup claimId

def SettlementTree.proofHex (tree : SettlementTree) (claimId : Nat) :
    Except KernelError (List String) :=
  orRevert ((tree.proof claimId).map fun proof => proof.map hashHex) (.missingClaim claimId)

def SettlementTree.allProofsHex (tree : SettlementTree) : List (Nat × List String) :=
  tree.proofs.map fun entry => (entry.1, entry.2.map hashHex)

end Tree

/-! ## Leaf strings -/

/-- The words of a leaf string, in ABI order: eight head words, then the array. -/
def leafWords (incidentId : Nat) (row : MerkleRow) : List Nat :=
  [incidentId, row.claimId, row.user.val, 256, row.scoreSpent, row.boostedScore,
    row.eligibleAmount, row.eligibleBoosterAmount, row.amounts.length] ++ row.amounts

/-- Every word of the row's leaf string fits 256 bits. -/
structure MerkleRow.WordsFit (row : MerkleRow) : Prop where
  claimId : row.claimId < uintBound 256
  scoreSpent : row.scoreSpent < uintBound 256
  boostedScore : row.boostedScore < uintBound 256
  eligibleAmount : row.eligibleAmount < uintBound 256
  eligibleBoosterAmount : row.eligibleBoosterAmount < uintBound 256
  amounts : ∀ amount ∈ row.amounts, amount < uintBound 256
  length : row.amounts.length < uintBound 64

/-- A row as the kernel holds it: the amounts are a Rust vector of 24-byte
integers, which `isize::MAX` bytes bound. -/
structure MerkleRow.Fits (row : MerkleRow) : Prop extends row.WordsFit where
  vecLength : row.amounts.length * 24 < uintBound 63

theorem leafWords_fit (incidentId : Nat) (row : MerkleRow)
    (incidentFits : incidentId < uintBound 256) (fits : row.WordsFit) :
    ∀ word ∈ leafWords incidentId row, word < uintBound 256 := by
  have lengthFits : row.amounts.length < uintBound 256 := by
    have bound := fits.length
    norm_num [uintBound] at bound ⊢
    omega
  have offsetFits : 256 < uintBound 256 := by norm_num [uintBound]
  intro word member
  simp only [leafWords, List.mem_append, List.mem_cons, List.not_mem_nil, or_false] at member
  rcases member with (rfl | rfl | rfl | rfl | rfl | rfl | rfl | rfl | rfl) | member
  · exact incidentFits
  · exact fits.claimId
  · exact row.user.val_lt_word
  · exact offsetFits
  · exact fits.scoreSpent
  · exact fits.boostedScore
  · exact fits.eligibleAmount
  · exact fits.eligibleBoosterAmount
  · exact lengthFits
  · exact fits.amounts word member

theorem leafWords_injective (firstIncident secondIncident : Nat) (first second : MerkleRow)
    (same : leafWords firstIncident first = leafWords secondIncident second) :
    firstIncident = secondIncident ∧ first = second := by
  cases first
  cases second
  simp only [leafWords, List.cons_append, List.nil_append, List.cons.injEq] at same
  obtain ⟨incident, claim, user, -, score, boosted, eligible, booster, -, amounts⟩ := same
  have userEq := Address.ext_val user
  subst claim userEq score boosted eligible booster amounts
  exact ⟨incident, rfl⟩

theorem encodeLeaf_ok_iff (incidentId : Nat) (row : MerkleRow) (encoded : List Byte) :
    encodeLeaf incidentId row = .ok encoded ↔
      (row.amounts.length * 32 < usizeBound ∧ incidentId < uintBound 256 ∧
        row.claimId < uintBound 256 ∧ row.scoreSpent < uintBound 256 ∧
        row.boostedScore < uintBound 256 ∧ row.eligibleAmount < uintBound 256 ∧
        row.eligibleBoosterAmount < uintBound 256 ∧
        ∀ amount ∈ row.amounts, amount < uintBound 256) ∧
      encoded = encodeWords (leafWords incidentId row) := by
  have assembled : row.amounts.length * 32 < usizeBound →
      encodeWords [incidentId, row.claimId] ++ abiWord row.user ++ usizeWord 256 ++
        encodeWords [row.scoreSpent, row.boostedScore, row.eligibleAmount,
          row.eligibleBoosterAmount] ++
        usizeWord row.amounts.length ++ encodeWords row.amounts =
      encodeWords (leafWords incidentId row) := by
    intro bound
    have lengthFits : row.amounts.length < usizeBound := by omega
    rw [usizeWord_eq_wordBytes 256 (by norm_num [usizeBound, uintBound]),
      usizeWord_eq_wordBytes _ lengthFits, abiWord_eq_wordBytes, leafWords,
      encodeWords_append]
    simp only [encodeWords_cons, encodeWords_nil, List.append_assoc, List.nil_append]
  unfold encodeLeaf
  simp only [bind_ok_iff, revertIf_ok_iff, pure_ok_iff, uint256Words_ok_iff, exists_const,
    not_le, List.forall_mem_cons, List.not_mem_nil, false_implies, implies_true, and_true]
  constructor
  · rintro ⟨bound, ids, ⟨⟨incident, claim⟩, rfl⟩, scalars,
      ⟨⟨score, boosted, eligible, booster⟩, rfl⟩, amounts, ⟨amountsFit, rfl⟩, rfl⟩
    exact ⟨⟨bound, incident, claim, score, boosted, eligible, booster, amountsFit⟩,
      assembled bound⟩
  · rintro ⟨⟨bound, incident, claim, score, boosted, eligible, booster, amountsFit⟩, rfl⟩
    exact ⟨bound, _, ⟨⟨incident, claim⟩, rfl⟩, _,
      ⟨⟨score, boosted, eligible, booster⟩, rfl⟩, _, ⟨amountsFit, rfl⟩, assembled bound⟩

theorem encodeLeaf_of_fits (incidentId : Nat) (row : MerkleRow)
    (incidentFits : incidentId < uintBound 256) (fits : row.Fits) :
    encodeLeaf incidentId row = .ok (encodeWords (leafWords incidentId row)) := by
  apply (encodeLeaf_ok_iff incidentId row _).mpr
  have vecBound : row.amounts.length * 32 < usizeBound := by
    have bound := fits.vecLength
    norm_num [usizeBound, uintBound] at bound ⊢
    omega
  exact ⟨⟨vecBound, incidentFits, fits.claimId, fits.scoreSpent, fits.boostedScore,
    fits.eligibleAmount, fits.eligibleBoosterAmount, fits.amounts⟩, rfl⟩

/-! ## Node strings -/

theorem nodeString_comm (a b : Hash) : nodeString a b = nodeString b a := by
  unfold nodeString
  by_cases below : a.val ≤ b.val
  · by_cases above : b.val ≤ a.val
    · have same : a = b := Hash.ext_val (Nat.le_antisymm below above)
      subst same
      rfl
    · rw [if_pos below, if_neg above]
  · rw [if_neg below, if_pos (by omega)]

theorem nodeString_length (a b : Hash) : (nodeString a b).length = 64 := by
  unfold nodeString
  split <;> simp

/-- A node string determines its children up to their order. -/
theorem nodeString_child (a b c d : Hash) (same : nodeString a b = nodeString c d) :
    a = c ∨ a = d := by
  unfold nodeString at same
  split at same <;> split at same <;>
    obtain ⟨left, right⟩ := List.append_inj same (by simp)
  · exact Or.inl (Hash.bytes_injective left)
  · exact Or.inr (Hash.bytes_injective left)
  · exact Or.inr (Hash.bytes_injective right)
  · exact Or.inl (Hash.bytes_injective right)

theorem standardNodeHash_comm (keccak256 : List Byte → Hash) (a b : Hash) :
    standardNodeHash keccak256 a b = standardNodeHash keccak256 b a := by
  rw [standardNodeHash, standardNodeHash, nodeString_comm]

/-! ## What `collectLeaves` returns -/

section Leaves

variable (keccak256 : List Byte → Hash)

/-- The digest of a row that fits. -/
def leafDigest (incidentId : Nat) (row : MerkleRow) : Hash :=
  keccak256 (keccak256 (encodeWords (leafWords incidentId row))).bytes

theorem standardLeafHash_ok (incidentId : Nat) (row : MerkleRow) (leaf : Hash)
    (run : standardLeafHash keccak256 incidentId row = .ok leaf) :
    leaf = leafDigest keccak256 incidentId row := by
  unfold standardLeafHash at run
  obtain ⟨encoded, encodeRun, result⟩ := (bind_ok_iff _ _ _).mp run
  obtain ⟨-, encodedEq⟩ := (encodeLeaf_ok_iff incidentId row encoded).mp encodeRun
  have leafEq := (pure_ok_iff _ _).mp result
  rw [← leafEq, encodedEq, leafDigest]

theorem standardLeafHash_fits (incidentId : Nat) (row : MerkleRow) (leaf : Hash)
    (run : standardLeafHash keccak256 incidentId row = .ok leaf) :
    incidentId < uintBound 256 ∧ row.WordsFit := by
  unfold standardLeafHash at run
  obtain ⟨encoded, encodeRun, -⟩ := (bind_ok_iff _ _ _).mp run
  obtain ⟨⟨size, incident, claimId, score, boosted, eligible, booster, amounts⟩, -⟩ :=
    (encodeLeaf_ok_iff incidentId row encoded).mp encodeRun
  have length : row.amounts.length < uintBound 64 := by
    have bound : usizeBound = uintBound 64 := rfl
    omega
  exact ⟨incident, claimId, score, boosted, eligible, booster, amounts, length⟩

theorem standardLeafHash_of_fits (incidentId : Nat) (row : MerkleRow)
    (incidentFits : incidentId < uintBound 256) (fits : row.Fits) :
    standardLeafHash keccak256 incidentId row = .ok (leafDigest keccak256 incidentId row) := by
  rw [standardLeafHash, encodeLeaf_of_fits incidentId row incidentFits fits]
  rfl

theorem collectLeaves_ok (incidentId : Nat) :
    ∀ (rows : List MerkleRow) (claims : List Nat) (leaves : List (Hash × Nat)),
      collectLeaves keccak256 incidentId claims rows = .ok leaves →
      leaves = rows.map (fun row => (leafDigest keccak256 incidentId row, row.claimId)) ∧
        (rows.map MerkleRow.claimId).Nodup ∧
        ∀ row ∈ rows, row.claimId ∉ claims := by
  intro rows
  induction rows with
  | nil =>
      intro claims leaves run
      cases run
      simp
  | cons row rest ih =>
      intro claims leaves run
      unfold collectLeaves at run
      obtain ⟨_, fresh, run⟩ := (bind_ok_iff _ _ _).mp run
      obtain ⟨leaf, leafRun, run⟩ := (bind_ok_iff _ _ _).mp run
      obtain ⟨tail, tailRun, result⟩ := (bind_ok_iff _ _ _).mp run
      have freshId := (revertIf_ok_iff _ _ _).mp fresh
      obtain ⟨tailEq, tailDistinct, tailFresh⟩ := ih _ _ tailRun
      have leavesEq := (pure_ok_iff _ _).mp result
      refine ⟨?_, ?_, ?_⟩
      · rw [← leavesEq, tailEq, standardLeafHash_ok keccak256 incidentId row leaf leafRun]
        rfl
      · rw [List.map_cons, List.nodup_cons]
        refine ⟨?_, tailDistinct⟩
        intro repeated
        obtain ⟨other, member, sameId⟩ := List.mem_map.mp repeated
        exact tailFresh other member (by simp [sameId])
      · intro other member
        rcases List.mem_cons.mp member with rfl | member
        · exact freshId
        · intro seen
          exact tailFresh other member (by simp [seen])

theorem collectLeaves_fits (incidentId : Nat) :
    ∀ (rows : List MerkleRow) (claims : List Nat) (leaves : List (Hash × Nat)),
      collectLeaves keccak256 incidentId claims rows = .ok leaves →
      ∀ row ∈ rows, incidentId < uintBound 256 ∧ row.WordsFit := by
  intro rows
  induction rows with
  | nil => simp
  | cons row rest ih =>
      intro claims leaves run
      unfold collectLeaves at run
      obtain ⟨_, -, run⟩ := (bind_ok_iff _ _ _).mp run
      obtain ⟨leaf, leafRun, run⟩ := (bind_ok_iff _ _ _).mp run
      obtain ⟨tail, tailRun, -⟩ := (bind_ok_iff _ _ _).mp run
      intro other member
      rcases List.mem_cons.mp member with rfl | member
      · exact standardLeafHash_fits keccak256 incidentId other leaf leafRun
      · exact ih _ _ tailRun other member

theorem collectLeaves_of_fits (incidentId : Nat) (incidentFits : incidentId < uintBound 256) :
    ∀ (rows : List MerkleRow) (claims : List Nat),
      (∀ row ∈ rows, row.Fits) → (rows.map MerkleRow.claimId).Nodup →
      (∀ row ∈ rows, row.claimId ∉ claims) →
      ∃ leaves, collectLeaves keccak256 incidentId claims rows = .ok leaves := by
  intro rows
  induction rows with
  | nil => intro claims _ _ _; exact ⟨[], rfl⟩
  | cons row rest ih =>
      intro claims fits distinct fresh
      rw [List.map_cons, List.nodup_cons] at distinct
      obtain ⟨tail, tailRun⟩ := ih (row.claimId :: claims)
        (fun other member => fits other (by simp [member])) distinct.2
        (by
          intro other member
          rw [List.mem_cons, not_or]
          refine ⟨?_, fresh other (by simp [member])⟩
          intro same
          exact distinct.1 (List.mem_map.mpr ⟨other, member, same⟩))
      refine ⟨(leafDigest keccak256 incidentId row, row.claimId) :: tail, ?_⟩
      unfold collectLeaves
      rw [revertIf, if_neg (fresh row (by simp)),
        standardLeafHash_of_fits keccak256 incidentId row incidentFits (fits row (by simp)),
        tailRun]
      rfl

end Leaves

end Usd8Core.Kernel
