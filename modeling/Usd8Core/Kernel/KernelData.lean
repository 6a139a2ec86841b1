import Usd8Core.Lib.ByteWords
import Usd8Core.Lib.CheckedCall

/-!
# Data of the settlement kernel

The kernel of `offchain-rust/src/lib.rs` works on unbounded naturals and meets
the 256-bit world only where a value is written into an ABI word.  `keccak256`
is a parameter of every function that hashes.
-/

set_option autoImplicit false

namespace Usd8Core.Kernel

open Usd8Core.Lib.ByteWords
open Usd8Core.Lib.CheckedCall

def bps : Nat := 10000

def maxCoverageBps : Nat := 8000

def maxProtocolFeeBps : Nat := 2000

/-- Values of a 64-bit `usize`. -/
def usizeBound : Nat := uintBound 64

inductive KernelError where
  | uint256Overflow
  | duplicateInputUser (user : Address)
  | duplicateClaim (claimId : Nat)
  | missingClaim (claimId : Nat)
  | emptyMerkleTree
  | duplicateRegistration (claimId : Nat)
  | unknownCancellation (claimId : Nat)
  | duplicateCancellation (claimId : Nat)
  | duplicateResolvedClaim (claimId : Nat)
  | missingResolvedClaim (claimId : Nat)
  | unexpectedResolvedClaim (claimId : Nat)
  | resolvedClaimMismatch (claimId : Nat)
  | eventOrder (previousBlock previousIndex block index : Nat)
  | invalidPolicy (message : String)
  deriving DecidableEq

structure PoolInput where
  balance : Nat
  assetUsd : Nat
  assetDecimals : Nat

structure ClaimInput where
  claimId : Nat
  user : Address
  escrowAmount : Nat
  minHeld : Nat
  grossEarnedScore : Nat
  spentScore : Nat
  scoreToSpend : Nat
  boosterAmount : Nat
  boosterHeld : Nat

structure KernelInput where
  incidentId : Nat
  coverageBps : Nat
  boosterBoostBps : Nat
  insuredDecimals : Nat
  twapRatio : Nat
  underlyingUsd : Nat
  maxCoverPoolPayoutBps : Nat
  protocolFeeShareBps : Nat
  pools : List PoolInput
  claims : List ClaimInput

structure SettledRow where
  claimId : Nat
  user : Address
  escrowAmount : Nat
  eligibleAmount : Nat
  lossUsd : Nat
  grossEarnedScore : Nat
  earnedScore : Nat
  scoreSpent : Nat
  boostedScore : Nat
  boosterAmount : Nat
  eligibleBoosterAmount : Nat
  payoutUsd : Nat
  amounts : List Nat

structure MerkleRow where
  claimId : Nat
  user : Address
  amounts : List Nat
  scoreSpent : Nat
  boostedScore : Nat
  eligibleAmount : Nat
  eligibleBoosterAmount : Nat
  deriving DecidableEq

structure KernelOutput where
  rows : List SettledRow
  poolPayouts : List Nat
  claimSetHash : String
  settlementInputHash : String
  root : String
  proofs : List (Nat × List String)

inductive EventKind where
  | register
  | cancel
  deriving DecidableEq

structure ClaimEvent where
  kind : EventKind
  claimId : Nat
  user : Address
  amount : Nat
  scoreToSpend : Nat
  boosterAmount : Nat
  blockNumber : Nat
  logIndex : Nat
  deriving DecidableEq

/-! ## ABI words -/

def pow10 (decimals : Nat) : Nat := 10 ^ decimals

theorem pow10_pos (decimals : Nat) : 0 < pow10 decimals := Nat.pow_pos (by decide)

/-- `uint256_word`: the minimal big-endian text, right-aligned in 32 bytes. -/
def uint256Word (value : Nat) : Except KernelError (List Byte) := do
  revertIf ((toBytesBe value).length > 32) .uint256Overflow
  pure (List.replicate (32 - (toBytesBe value).length) 0 ++ toBytesBe value)

/-- `usize_word`: the 8 big-endian bytes of a `usize`, right-aligned. -/
def usizeWord (value : Nat) : List Byte := List.replicate 24 0 ++ beBytes 8 value

/-- `Address::abi_word`. -/
def abiWord (address : Address) : List Byte :=
  List.replicate 12 0 ++ beBytes 20 address.val

theorem uint256Word_ok_iff (value : Nat) (word : List Byte) :
    uint256Word value = .ok word ↔ value < uintBound 256 ∧ word = wordBytes value := by
  unfold uint256Word
  simp only [bind_ok_iff, revertIf_ok_iff, pure_ok_iff, exists_const]
  rw [toBytesBe, beBytes_length, ← byteLength_le_iff]
  constructor
  · rintro ⟨short, rfl⟩
    refine ⟨by omega, ?_⟩
    rw [beBytes_pad _ _ _ (lt_pow_byteLength value), wordBytes]
    congr 1
    omega
  · rintro ⟨short, rfl⟩
    refine ⟨by omega, ?_⟩
    rw [beBytes_pad _ _ _ (lt_pow_byteLength value), wordBytes]
    congr 1
    omega

theorem uint256Word_avoids (bad : KernelError → Prop) (value : Nat)
    (harmless : ¬ bad .uint256Overflow) : Avoids bad (uint256Word value) := by
  unfold uint256Word
  apply avoids_revertIf_bind
  · intro _
    exact harmless
  · intro _
    exact avoids_pure _

theorem usizeWord_eq_wordBytes (value : Nat) (fits : value < usizeBound) :
    usizeWord value = wordBytes value := by
  have bytesFit : value < 256 ^ 8 := by
    have bound : usizeBound = 256 ^ 8 := by norm_num [usizeBound, uintBound]
    omega
  rw [usizeWord, beBytes_pad 24 8 value bytesFit, wordBytes]

theorem abiWord_eq_wordBytes (address : Address) :
    abiWord address = wordBytes address.val := by
  have bytesFit : address.val < 256 ^ 20 := by
    have bound : uintBound 160 = 256 ^ 20 := by norm_num [uintBound]
    have fits := address.isLt
    omega
  rw [abiWord, beBytes_pad 12 20 address.val bytesFit, wordBytes]

/-- The words of several naturals, the first one that does not fit ending the call. -/
def uint256Words : List Nat → Except KernelError (List Byte)
  | [] => .ok []
  | value :: rest => do
      let word ← uint256Word value
      let words ← uint256Words rest
      pure (word ++ words)

theorem uint256Words_avoids (bad : KernelError → Prop) (values : List Nat)
    (harmless : ¬ bad .uint256Overflow) : Avoids bad (uint256Words values) := by
  induction values with
  | nil => exact avoids_ok _
  | cons value rest ih =>
      unfold uint256Words
      apply avoids_bind _ _ (uint256Word_avoids bad value harmless)
      intro word _
      apply avoids_bind _ _ ih
      intro words _
      exact avoids_pure _

theorem uint256Words_ok_iff (values : List Nat) (bytes : List Byte) :
    uint256Words values = .ok bytes ↔
      (∀ value ∈ values, value < uintBound 256) ∧ bytes = encodeWords values := by
  induction values generalizing bytes with
  | nil => simp [uint256Words, encodeWords, eq_comm]
  | cons value rest ih =>
      simp only [uint256Words, bind_ok_iff, pure_ok_iff, uint256Word_ok_iff, ih,
        List.forall_mem_cons, encodeWords_cons]
      constructor
      · rintro ⟨word, ⟨fits, rfl⟩, words, ⟨restFits, rfl⟩, rfl⟩
        exact ⟨⟨fits, restFits⟩, rfl⟩
      · rintro ⟨⟨fits, restFits⟩, rfl⟩
        exact ⟨_, ⟨fits, rfl⟩, _, ⟨restFits, rfl⟩, rfl⟩

end Usd8Core.Kernel
