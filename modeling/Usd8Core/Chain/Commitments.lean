import Usd8Core.Chain.ChainState
import Usd8Core.Lib.HeapMerkle

/-!
# What the insurance module hashes

The ABI encoder, OpenZeppelin's Merkle fold and the EIP-712 digests of
`DefiInsurance.sol`, as functions of the platform's `keccak256`.
-/

set_option autoImplicit false

namespace Usd8Core.Chain

open Usd8Core.Lib.ByteWords
open Usd8Core.Lib.HeapMerkle

/-! ## `abi.encode` -/

/-- An argument of `abi.encode`: a one-word value or an array of one-word values. -/
inductive AbiValue where
  | word (value : Nat)
  | array (values : List Nat)

/-- The head: words in place, arrays as offsets into the tail. -/
def abiHead (offset : Nat) : List AbiValue → List Nat
  | [] => []
  | .word value :: rest => value :: abiHead offset rest
  | .array values :: rest => offset :: abiHead (offset + 32 * (values.length + 1)) rest

def abiTail : List AbiValue → List Nat
  | [] => []
  | .word _ :: rest => abiTail rest
  | .array values :: rest => values.length :: values ++ abiTail rest

def abiEncode (values : List AbiValue) : List Byte :=
  encodeWords (abiHead (32 * values.length) values ++ abiTail values)

theorem abiHead_words (values : List Nat) (offset : Nat) :
    abiHead offset (values.map AbiValue.word) = values := by
  induction values with
  | nil => rfl
  | cons value rest ih => rw [List.map_cons, abiHead, ih]

theorem abiTail_words (values : List Nat) : abiTail (values.map AbiValue.word) = [] := by
  induction values with
  | nil => rfl
  | cons value rest ih => rw [List.map_cons, abiTail, ih]

theorem abiEncode_words (values : List Nat) :
    abiEncode (values.map AbiValue.word) = encodeWords values := by
  rw [abiEncode, abiHead_words, abiTail_words, List.append_nil]

/-! ## Claim set and settlement rows -/

section Hashes

variable (platform : Platform)

def claimJoinHash (previous : Hash) (claimId : Nat) (user : Address)
    (escrow scoreToSpend boosterAmount : Nat) : Hash :=
  platform.keccak256 (abiEncode
    [.word previous.val, .word claimId, .word user.val, .word escrow, .word scoreToSpend,
      .word boosterAmount])

def claimCancelHash (previous : Hash) (claimId : Nat) : Hash :=
  platform.keccak256 (abiEncode [.word previous.val, .word claimId])

/-- The arguments of `_settlementLeaf` that come from calldata. -/
structure PayoutRow where
  amounts : List Nat
  scoreSpent : Nat
  boostedScore : Nat
  eligibleAmount : Nat
  eligibleBoosterAmount : Nat

def settlementLeafString (incidentId claimId : Nat) (user : Address) (row : PayoutRow) :
    List Byte :=
  abiEncode [.word incidentId, .word claimId, .word user.val, .array row.amounts,
    .word row.scoreSpent, .word row.boostedScore, .word row.eligibleAmount,
    .word row.eligibleBoosterAmount]

def settlementLeaf (incidentId claimId : Nat) (user : Address) (row : PayoutRow) : Hash :=
  platform.keccak256
    (platform.keccak256 (settlementLeafString incidentId claimId user row)).bytes

/-- OpenZeppelin's `Hashes.commutativeKeccak256`. -/
def commutativeKeccak256 (a b : Hash) : Hash :=
  if a.val < b.val then platform.keccak256 (a.bytes ++ b.bytes)
  else platform.keccak256 (b.bytes ++ a.bytes)

/-- `MerkleProof.verifyCalldata`. -/
def merkleProofVerify (proof : List Hash) (root leaf : Hash) : Bool :=
  foldProof (commutativeKeccak256 platform) leaf proof = root

/-! ## EIP-712 -/

def settlementTypehash : Hash := platform.keccak256 (asciiBytes
  "Settlement(uint256 incidentId,bytes32 root,uint256 unresolvedClaims,uint256[] poolPayouts,bytes32 pools,bytes32 claimSet,bytes32 teePcrHash)")

def openTypehash : Hash := platform.keccak256 (asciiBytes
  "IncidentOpen(address insuredToken,uint64 referenceBlock,uint256 incidentId,bytes32 teePcrHash,bytes32 eligibilityHash)")

def domainTypehash : Hash := platform.keccak256 (asciiBytes
  "EIP712Domain(string name,string version,uint256 chainId,address verifyingContract)")

def domainSeparator (self : Address) : Hash :=
  platform.keccak256 (abiEncode
    [.word (domainTypehash platform).val,
      .word (platform.keccak256 (asciiBytes "DefiInsurance")).val,
      .word (platform.keccak256 (asciiBytes "1")).val,
      .word platform.chainId, .word self.val])

def hashTypedData (self : Address) (structHash : Hash) : Hash :=
  platform.keccak256 ([0x19, 0x01] ++ (domainSeparator platform self).bytes ++ structHash.bytes)

/-- The digest `settleIncident` recovers the signer from. -/
def settlementDigest (self : Address) (incidentId : Nat) (incident : Incident) (root : Hash)
    (poolPayouts : List Nat) : Hash :=
  hashTypedData platform self (platform.keccak256 (abiEncode
    [.word (settlementTypehash platform).val, .word incidentId, .word root.val,
      .word incident.unresolvedClaims,
      .word (platform.keccak256 (encodeWords poolPayouts)).val,
      .word (platform.keccak256 (encodeWords (incident.pools.map Address.val))).val,
      .word incident.claimSetHash.val, .word incident.teePcrHash.val]))

def incidentOpenEligibilityHash (registry : Registry) (token : InsuredToken) : Hash :=
  platform.keccak256 (abiEncode
    [.word platform.registryAddress.val,
      .word registry.incidentOpenPriceConfig.twapBlocks,
      .word registry.incidentOpenPriceConfig.sampleStepBlocks,
      .word registry.incidentOpenPriceConfig.minimumDropBps,
      .word token.underlyingConversionAddress.val,
      .word (platform.keccak256 token.underlyingConversionCallData).val])

def incidentOpenDigest (self : Address) (registry : Registry) (token : InsuredToken)
    (insuredToken : Address) (referenceBlock incidentId : Nat) (teePcrHash : Hash) : Hash :=
  hashTypedData platform self (platform.keccak256 (abiEncode
    [.word (openTypehash platform).val, .word insuredToken.val, .word referenceBlock,
      .word incidentId, .word teePcrHash.val,
      .word (incidentOpenEligibilityHash platform registry token).val]))

end Hashes

end Usd8Core.Chain
