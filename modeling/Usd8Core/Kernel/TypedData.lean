import Usd8Core.Kernel.KernelData

/-!
# Typed-data digests of the enclave

`settlement_digest` and `incident_open_digest` hash an EIP-712 struct under the
domain of the insurance module.  Digests reach them as hexadecimal texts.
-/

set_option autoImplicit false

namespace Usd8Core.Kernel

open Usd8Core.Lib.ByteWords
open Usd8Core.Lib.CheckedCall

def domainType : List Byte := asciiBytes
  "EIP712Domain(string name,string version,uint256 chainId,address verifyingContract)"

def settlementType : List Byte := asciiBytes
  "Settlement(uint256 incidentId,bytes32 root,uint256 unresolvedClaims,uint256[] poolPayouts,bytes32 pools,bytes32 claimSet,bytes32 teePcrHash)"

def incidentOpenType : List Byte := asciiBytes
  "IncidentOpen(address insuredToken,uint64 referenceBlock,uint256 incidentId,bytes32 teePcrHash,bytes32 eligibilityHash)"

structure SettlementDigestInput where
  chainId : Nat
  verifyingContract : Address
  incidentId : Nat
  root : String
  unresolvedClaims : Nat
  poolPayouts : List Nat
  poolAddrs : List Address
  claimSet : String
  teePcrHash : String

structure IncidentOpenDigestInput where
  chainId : Nat
  verifyingContract : Address
  insuredToken : Address
  referenceBlock : Nat
  incidentId : Nat
  teePcrHash : String
  eligibilityHash : String

inductive TypedDataError where
  | invalidHash (field value : String)
  | uint256Overflow
  deriving DecidableEq

/-- `hash32`; a text with a character that is not ASCII is refused by the length or by the
decoder, with the same error. -/
def hash32 (field value : String) : Except TypedDataError Hash :=
  match strip0x value with
  | none => .error (.invalidHash field value)
  | some raw =>
      if raw.length = 64 then
        match decodeHexPairs raw with
        | some bytes => .ok (Hash.ofNat (beValue bytes))
        | none => .error (.invalidHash field value)
      else .error (.invalidHash field value)

def toTypedData {α : Type} (call : Except KernelError α) : Except TypedDataError α :=
  call.mapError fun _ => .uint256Overflow

def word (value : Nat) : Except TypedDataError (List Byte) := toTypedData (uint256Word value)

section Digests

variable (keccak256 : List Byte → Hash)

def packedUint256Hash (values : List Nat) : Except TypedDataError Hash := do
  let packed ← toTypedData (uint256Words values)
  pure (keccak256 packed)

def packedAddressHash (values : List Address) : Hash :=
  keccak256 (values.flatMap abiWord)

def domainHash (chainId : Nat) (verifyingContract : Address) : Except TypedDataError Hash := do
  let chainWord ← word chainId
  pure (keccak256 ((keccak256 domainType).bytes ++
    (keccak256 (asciiBytes "DefiInsurance")).bytes ++ (keccak256 (asciiBytes "1")).bytes ++
    chainWord ++ abiWord verifyingContract))

def typedDigest (domainHash structHash : Hash) : String :=
  hashHex (keccak256 ([0x19, 0x01] ++ domainHash.bytes ++ structHash.bytes))

def poolsHash (values : List Address) : String := hashHex (packedAddressHash keccak256 values)

def settlementDigest (input : SettlementDigestInput) : Except TypedDataError String := do
  let root ← hash32 "root" input.root
  let claimSet ← hash32 "claimSet" input.claimSet
  let teePcrHash ← hash32 "teePcrHash" input.teePcrHash
  let domain ← domainHash keccak256 input.chainId input.verifyingContract
  let incidentWord ← word input.incidentId
  let unresolvedWord ← word input.unresolvedClaims
  let payouts ← packedUint256Hash keccak256 input.poolPayouts
  let pools := packedAddressHash keccak256 input.poolAddrs
  pure (typedDigest keccak256 domain (keccak256 ((keccak256 settlementType).bytes ++
    incidentWord ++ root.bytes ++ unresolvedWord ++ payouts.bytes ++ pools.bytes ++
    claimSet.bytes ++ teePcrHash.bytes)))

def incidentOpenDigest (input : IncidentOpenDigestInput) : Except TypedDataError String := do
  let teePcrHash ← hash32 "teePcrHash" input.teePcrHash
  let eligibilityHash ← hash32 "eligibilityHash" input.eligibilityHash
  let referenceWord ← word input.referenceBlock
  let incidentWord ← word input.incidentId
  let domain ← domainHash keccak256 input.chainId input.verifyingContract
  pure (typedDigest keccak256 domain (keccak256 ((keccak256 incidentOpenType).bytes ++
    abiWord input.insuredToken ++ referenceWord ++ incidentWord ++ teePcrHash.bytes ++
    eligibilityHash.bytes)))

end Digests

/-! ## What a successful step of each function did -/

/-- The text of a digest reads back as the digest. -/
theorem hash32_hashHex (field : String) (hash : Hash) :
    hash32 field (hashHex hash) = .ok hash := by
  have stripped : strip0x (hashHex hash) = some (hash.bytes.flatMap hexByte) := by
    simp [strip0x, hashHex]
  have length : (hash.bytes.flatMap hexByte).length = 64 := by
    simp [List.length_flatMap, hexByte]
  have spelled : Hash.ofNat (beValue (hash.bytes.map UInt8.toNat)) = hash := by
    apply Hash.ext_val
    have fits : hash.val < 256 ^ 32 := wordBound_eq ▸ hash.isLt
    rw [Hash.bytes, wordBytes, beValue_beBytes 32 hash.val fits]
    exact Nat.mod_eq_of_lt hash.isLt
  simp only [hash32, stripped, length, if_true, decodeHexPairs_flatMap_hexByte, spelled]

theorem toTypedData_ok_iff {α : Type} (call : Except KernelError α) (result : α) :
    toTypedData call = .ok result ↔ call = .ok result := by
  cases call <;> simp [toTypedData, Except.mapError]

theorem word_ok_iff (value : Nat) (bytes : List Byte) :
    word value = .ok bytes ↔ value < uintBound 256 ∧ bytes = wordBytes value := by
  rw [word, toTypedData_ok_iff, uint256Word_ok_iff]

section StepLemmas

variable (keccak256 : List Byte → Hash)

theorem packedUint256Hash_ok_iff (values : List Nat) (hash : Hash) :
    packedUint256Hash keccak256 values = .ok hash ↔
      (∀ value ∈ values, value < uintBound 256) ∧ hash = keccak256 (encodeWords values) := by
  simp only [packedUint256Hash, bind_ok_iff, toTypedData_ok_iff, uint256Words_ok_iff, pure_ok_iff]
  constructor
  · rintro ⟨packed, ⟨fits, rfl⟩, rfl⟩
    exact ⟨fits, rfl⟩
  · rintro ⟨fits, rfl⟩
    exact ⟨_, ⟨fits, rfl⟩, rfl⟩

theorem packedAddressHash_eq (values : List Address) :
    packedAddressHash keccak256 values = keccak256 (encodeWords (values.map Address.val)) := by
  have padded : abiWord = fun address => wordBytes address.val := funext abiWord_eq_wordBytes
  simp [packedAddressHash, encodeWords, List.flatMap_map, padded]

def domainWords (chainId : Nat) (verifyingContract : Address) : List Nat :=
  [(keccak256 domainType).val, (keccak256 (asciiBytes "DefiInsurance")).val,
    (keccak256 (asciiBytes "1")).val, chainId, verifyingContract.val]

theorem domainHash_ok_iff (chainId : Nat) (verifyingContract : Address) (hash : Hash) :
    domainHash keccak256 chainId verifyingContract = .ok hash ↔
      chainId < uintBound 256 ∧
        hash = keccak256 (encodeWords (domainWords keccak256 chainId verifyingContract)) := by
  simp only [domainHash, bind_ok_iff, word_ok_iff, pure_ok_iff, domainWords, encodeWords_cons,
    encodeWords_nil, Hash.bytes, abiWord_eq_wordBytes, List.append_assoc, List.append_nil]
  constructor
  · rintro ⟨chainWord, ⟨fits, rfl⟩, rfl⟩
    exact ⟨fits, rfl⟩
  · rintro ⟨fits, rfl⟩
    exact ⟨_, ⟨fits, rfl⟩, rfl⟩

/-- The struct words of a settlement whose three digests have been read. -/
def settlementWords (input : SettlementDigestInput) (root claimSet teePcrHash : Hash) :
    List Nat :=
  [(keccak256 settlementType).val, input.incidentId, root.val, input.unresolvedClaims,
    (keccak256 (encodeWords input.poolPayouts)).val,
    (keccak256 (encodeWords (input.poolAddrs.map Address.val))).val, claimSet.val,
    teePcrHash.val]

def incidentOpenWords (input : IncidentOpenDigestInput) (teePcrHash eligibilityHash : Hash) :
    List Nat :=
  [(keccak256 incidentOpenType).val, input.insuredToken.val, input.referenceBlock,
    input.incidentId, teePcrHash.val, eligibilityHash.val]

/-- The string whose digest is signed. -/
def typedString (domain struct : List Nat) : List Byte :=
  [0x19, 0x01] ++ (keccak256 (encodeWords domain)).bytes ++
    (keccak256 (encodeWords struct)).bytes

/-- What a settlement digest that was returned has read and checked. -/
structure SettlementSigned (input : SettlementDigestInput) (root claimSet teePcrHash : Hash)
    (text : String) : Prop where
  rootRead : hash32 "root" input.root = .ok root
  claimSetRead : hash32 "claimSet" input.claimSet = .ok claimSet
  pcrRead : hash32 "teePcrHash" input.teePcrHash = .ok teePcrHash
  chainFits : input.chainId < uintBound 256
  incidentFits : input.incidentId < uintBound 256
  unresolvedFits : input.unresolvedClaims < uintBound 256
  payoutsFit : ∀ payout ∈ input.poolPayouts, payout < uintBound 256
  signed : text = hashHex (keccak256 (typedString keccak256
    (domainWords keccak256 input.chainId input.verifyingContract)
    (settlementWords keccak256 input root claimSet teePcrHash)))

theorem settlementDigest_ok (input : SettlementDigestInput) (text : String)
    (run : settlementDigest keccak256 input = .ok text) :
    ∃ root claimSet teePcrHash,
      SettlementSigned keccak256 input root claimSet teePcrHash text := by
  simp only [settlementDigest, bind_ok_iff, pure_ok_iff, domainHash_ok_iff, word_ok_iff,
    packedUint256Hash_ok_iff, packedAddressHash_eq] at run
  obtain ⟨root, rootRead, claimSet, claimSetRead, teePcrHash, pcrRead, _, ⟨chainFits, rfl⟩, _,
    ⟨incidentFits, rfl⟩, _, ⟨unresolvedFits, rfl⟩, _, ⟨payoutsFit, rfl⟩, rfl⟩ := run
  refine ⟨root, claimSet, teePcrHash, rootRead, claimSetRead, pcrRead, chainFits, incidentFits,
    unresolvedFits, payoutsFit, ?_⟩
  simp only [typedDigest, typedString, settlementWords, encodeWords_cons, encodeWords_nil,
    Hash.bytes, List.append_assoc, List.append_nil]

structure IncidentOpenSigned (input : IncidentOpenDigestInput) (teePcrHash eligibilityHash : Hash)
    (text : String) : Prop where
  pcrRead : hash32 "teePcrHash" input.teePcrHash = .ok teePcrHash
  eligibilityRead : hash32 "eligibilityHash" input.eligibilityHash = .ok eligibilityHash
  chainFits : input.chainId < uintBound 256
  signed : text = hashHex (keccak256 (typedString keccak256
    (domainWords keccak256 input.chainId input.verifyingContract)
    (incidentOpenWords keccak256 input teePcrHash eligibilityHash)))

theorem incidentOpenDigest_ok (input : IncidentOpenDigestInput) (text : String)
    (run : incidentOpenDigest keccak256 input = .ok text) :
    ∃ teePcrHash eligibilityHash,
      IncidentOpenSigned keccak256 input teePcrHash eligibilityHash text := by
  simp only [incidentOpenDigest, bind_ok_iff, pure_ok_iff, domainHash_ok_iff, word_ok_iff] at run
  obtain ⟨teePcrHash, pcrRead, eligibilityHash, eligibilityRead, _, ⟨-, rfl⟩, _, ⟨-, rfl⟩, _,
    ⟨chainFits, rfl⟩, rfl⟩ := run
  refine ⟨teePcrHash, eligibilityHash, pcrRead, eligibilityRead, chainFits, ?_⟩
  simp only [typedDigest, typedString, incidentOpenWords, encodeWords_cons, encodeWords_nil,
    Hash.bytes, abiWord_eq_wordBytes, List.append_assoc, List.append_nil]

end StepLemmas

end Usd8Core.Kernel
