import Usd8Core.Kernel.TypedData
import Usd8Core.Settlement.MerkleCommitment

/-!
# The digests the enclave signs are the ones the contract checks

Both sides hash the same words: the enclave reads three of them from texts and
packs the arrays itself, the contract encodes its own state.  The digest binds
every field through three levels of hashing.
-/

set_option autoImplicit false

namespace Usd8Core.Settlement

open Usd8Core.Lib.ByteWords
open Usd8Core.Lib.CheckedCall
open Usd8Core.Kernel
open Usd8Core.Chain (Platform Incident Registry InsuredToken abiEncode abiEncode_words
  hashTypedData domainSeparator domainTypehash settlementTypehash openTypehash
  incidentOpenEligibilityHash SmallDeployment.platform SmallDeployment.root
  SmallDeployment.pool SmallDeployment.module)

/-! ## Agreement -/

/-- The input of the enclave spells out what the module hashes for a settlement. -/
structure DescribesSettlement (platform : Platform) (insurance : Address) (incidentId : Nat)
    (incident : Incident) (root : Hash) (poolPayouts : List Nat)
    (input : SettlementDigestInput) : Prop where
  chainId : input.chainId = platform.chainId
  contract : input.verifyingContract = insurance
  incidentId : input.incidentId = incidentId
  root : hash32 "root" input.root = .ok root
  unresolvedClaims : input.unresolvedClaims = incident.unresolvedClaims
  poolPayouts : input.poolPayouts = poolPayouts
  pools : input.poolAddrs = incident.pools
  claimSet : hash32 "claimSet" input.claimSet = .ok incident.claimSetHash
  teePcrHash : hash32 "teePcrHash" input.teePcrHash = .ok incident.teePcrHash

/-- The input of the enclave spells out what the module hashes for an opening. -/
structure DescribesOpening (platform : Platform) (insurance : Address) (registry : Registry)
    (token : InsuredToken) (insuredToken : Address) (referenceBlock incidentId : Nat)
    (teePcrHash : Hash) (input : IncidentOpenDigestInput) : Prop where
  chainId : input.chainId = platform.chainId
  contract : input.verifyingContract = insurance
  insuredToken : input.insuredToken = insuredToken
  referenceBlock : input.referenceBlock = referenceBlock
  incidentId : input.incidentId = incidentId
  teePcrHash : hash32 "teePcrHash" input.teePcrHash = .ok teePcrHash
  eligibilityHash : hash32 "eligibilityHash" input.eligibilityHash =
    .ok (incidentOpenEligibilityHash platform registry token)

/-- `_hashTypedDataV4` hashes the string of the domain and struct words. -/
theorem hashTypedData_eq (platform : Platform) (insurance : Address) (struct : List Nat) :
    hashTypedData platform insurance
        (platform.keccak256 (abiEncode (struct.map Chain.AbiValue.word))) =
      platform.keccak256 (typedString platform.keccak256
        (domainWords platform.keccak256 platform.chainId insurance) struct) := by
  have domain : domainSeparator platform insurance = platform.keccak256
      (encodeWords (domainWords platform.keccak256 platform.chainId insurance)) := by
    rw [← abiEncode_words]
    rfl
  rw [hashTypedData, domain, abiEncode_words]
  rfl

theorem settlementDigest_agrees (platform : Platform) (insurance : Address) (incidentId : Nat)
    (incident : Incident) (root : Hash) (poolPayouts : List Nat)
    (input : SettlementDigestInput) (text : String)
    (describes : DescribesSettlement platform insurance incidentId incident root poolPayouts input)
    (run : settlementDigest platform.keccak256 input = .ok text) :
    text = hashHex
      (Chain.settlementDigest platform insurance incidentId incident root poolPayouts) := by
  obtain ⟨readRoot, readClaimSet, readPcr, signed⟩ :=
    settlementDigest_ok platform.keccak256 input text run
  cases signed.rootRead.symm.trans describes.root
  cases signed.claimSetRead.symm.trans describes.claimSet
  cases signed.pcrRead.symm.trans describes.teePcrHash
  have onChain := hashTypedData_eq platform insurance
    (settlementWords platform.keccak256 input root incident.claimSetHash incident.teePcrHash)
  rw [signed.signed, describes.chainId, describes.contract, ← onChain]
  obtain ⟨-, -, rfl, -, unresolved, rfl, pools, -, -⟩ := describes
  rw [settlementWords, unresolved, pools]
  rfl

theorem incidentOpenDigest_agrees (platform : Platform) (insurance : Address) (registry : Registry)
    (token : InsuredToken) (insuredToken : Address) (referenceBlock incidentId : Nat)
    (teePcrHash : Hash) (input : IncidentOpenDigestInput) (text : String)
    (describes : DescribesOpening platform insurance registry token insuredToken referenceBlock
      incidentId teePcrHash input)
    (run : incidentOpenDigest platform.keccak256 input = .ok text) :
    text = hashHex (Chain.incidentOpenDigest platform insurance registry token insuredToken
      referenceBlock incidentId teePcrHash) := by
  obtain ⟨readPcr, readEligibility, signed⟩ :=
    incidentOpenDigest_ok platform.keccak256 input text run
  cases signed.pcrRead.symm.trans describes.teePcrHash
  cases signed.eligibilityRead.symm.trans describes.eligibilityHash
  have onChain := hashTypedData_eq platform insurance
    (incidentOpenWords platform.keccak256 input teePcrHash
      (incidentOpenEligibilityHash platform registry token))
  rw [signed.signed, describes.chainId, describes.contract, ← onChain]
  obtain ⟨-, -, rfl, rfl, rfl, -, -⟩ := describes
  rfl

/-! ## Binding -/

section Binding

variable (keccak256 : List Byte → Hash)

/-- The digest a text spells out, zero where it spells none. -/
def spelled (value : String) : Hash :=
  match hash32 "" value with
  | .ok hash => hash
  | .error _ => Hash.zero

theorem spelled_of_read (field value : String) (hash : Hash)
    (read : hash32 field value = .ok hash) : spelled value = hash := by
  have sameRead : hash32 "" value = .ok hash := by
    unfold hash32 at read ⊢
    cases stripped : strip0x value with
    | none => simp [stripped] at read
    | some raw =>
        simp only [stripped] at read ⊢
        split at read
        next sized =>
          rw [if_pos sized]
          cases decoded : decodeHexPairs raw with
          | none => simp [decoded] at read
          | some bytes => simpa [decoded] using read
        next => cases read
  rw [spelled, sameRead]

/-- The struct and the domain of an input, and the arrays hashed on the way. -/
def settlementStruct (input : SettlementDigestInput) : List Nat :=
  settlementWords keccak256 input (spelled input.root) (spelled input.claimSet)
    (spelled input.teePcrHash)

def incidentOpenStruct (input : IncidentOpenDigestInput) : List Nat :=
  incidentOpenWords keccak256 input (spelled input.teePcrHash) (spelled input.eligibilityHash)

/-- The strings hashed for a domain and a struct. -/
def typedStrings (domain struct : List Nat) : List (List Byte) :=
  [encodeWords domain, encodeWords struct, typedString keccak256 domain struct]

def settlementStrings (input : SettlementDigestInput) : List (List Byte) :=
  [encodeWords input.poolPayouts, encodeWords (input.poolAddrs.map Address.val)] ++
    typedStrings keccak256 (domainWords keccak256 input.chainId input.verifyingContract)
      (settlementStruct keccak256 input)

def incidentOpenStrings (input : IncidentOpenDigestInput) : List (List Byte) :=
  typedStrings keccak256 (domainWords keccak256 input.chainId input.verifyingContract)
    (incidentOpenStruct keccak256 input)

/-- A typed digest binds the encodings of its domain and of its struct. -/
theorem typedString_binds (domain struct domain' struct' : List Nat)
    (collisionFree : CollisionFree keccak256
      (typedStrings keccak256 domain struct ++ typedStrings keccak256 domain' struct'))
    (same : keccak256 (typedString keccak256 domain struct) =
      keccak256 (typedString keccak256 domain' struct')) :
    encodeWords domain = encodeWords domain' ∧ encodeWords struct = encodeWords struct' := by
  have sameString := collisionFree (by simp [typedStrings]) (by simp [typedStrings]) same
  unfold typedString at sameString
  obtain ⟨sameHead, sameStruct⟩ := List.append_inj sameString (by simp)
  have sameDomain := List.append_cancel_left sameHead
  exact ⟨collisionFree (by simp [typedStrings]) (by simp [typedStrings])
      (Hash.bytes_injective sameDomain),
    collisionFree (by simp [typedStrings]) (by simp [typedStrings])
      (Hash.bytes_injective sameStruct)⟩

theorem domainWords_fit (chainId : Nat) (contract : Address)
    (fits : chainId < uintBound 256) :
    ∀ word ∈ domainWords keccak256 chainId contract, word < uintBound 256 := by
  simp [domainWords, Hash.isLt, Address.val_lt_word, fits]

theorem domainWords_injective (chainId chainId' : Nat) (contract contract' : Address)
    (fits : chainId < uintBound 256) (fits' : chainId' < uintBound 256)
    (same : encodeWords (domainWords keccak256 chainId contract) =
      encodeWords (domainWords keccak256 chainId' contract')) :
    chainId = chainId' ∧ contract = contract' := by
  have sameWords := encodeWords_injective _ _ (domainWords_fit keccak256 chainId contract fits)
    (domainWords_fit keccak256 chainId' contract' fits') same
  simp only [domainWords, List.cons.injEq, true_and, and_true] at sameWords
  exact ⟨sameWords.1, Address.ext_val sameWords.2⟩

theorem settlementWords_fit (input : SettlementDigestInput) (root claimSet teePcrHash : Hash)
    (incidentFits : input.incidentId < uintBound 256)
    (unresolvedFits : input.unresolvedClaims < uintBound 256) :
    ∀ word ∈ settlementWords keccak256 input root claimSet teePcrHash,
      word < uintBound 256 := by
  simp [settlementWords, Hash.isLt, incidentFits, unresolvedFits]

/-- What a settlement digest signed, with the strings it was read from. -/
theorem settlementDigest_signed (input : SettlementDigestInput) (text : String)
    (run : settlementDigest keccak256 input = .ok text) :
    SettlementSigned keccak256 input (spelled input.root) (spelled input.claimSet)
      (spelled input.teePcrHash) text := by
  obtain ⟨root, claimSet, teePcrHash, signed⟩ := settlementDigest_ok keccak256 input text run
  rw [spelled_of_read _ _ _ signed.rootRead, spelled_of_read _ _ _ signed.claimSetRead,
    spelled_of_read _ _ _ signed.pcrRead]
  exact signed

theorem incidentOpenDigest_signed (input : IncidentOpenDigestInput) (text : String)
    (run : incidentOpenDigest keccak256 input = .ok text) :
    IncidentOpenSigned keccak256 input (spelled input.teePcrHash)
      (spelled input.eligibilityHash) text := by
  obtain ⟨teePcrHash, eligibilityHash, signed⟩ := incidentOpenDigest_ok keccak256 input text run
  rw [spelled_of_read _ _ _ signed.pcrRead, spelled_of_read _ _ _ signed.eligibilityRead]
  exact signed

/-- Two settlements with one digest agree in every field; the digests they carry as texts
agree as digests. -/
theorem settlementDigest_binds (first second : SettlementDigestInput) (text : String)
    (firstRun : settlementDigest keccak256 first = .ok text)
    (secondRun : settlementDigest keccak256 second = .ok text)
    (collisionFree : CollisionFree keccak256
      (settlementStrings keccak256 first ++ settlementStrings keccak256 second)) :
    first.chainId = second.chainId ∧ first.verifyingContract = second.verifyingContract ∧
      first.incidentId = second.incidentId ∧
      hash32 "root" first.root = hash32 "root" second.root ∧
      first.unresolvedClaims = second.unresolvedClaims ∧
      first.poolPayouts = second.poolPayouts ∧ first.poolAddrs = second.poolAddrs ∧
      hash32 "claimSet" first.claimSet = hash32 "claimSet" second.claimSet ∧
      hash32 "teePcrHash" first.teePcrHash = hash32 "teePcrHash" second.teePcrHash := by
  have signed := settlementDigest_signed keccak256 first text firstRun
  have signed' := settlementDigest_signed keccak256 second text secondRun
  have sameDigest := hashHex_injective (signed.signed.symm.trans signed'.signed)
  obtain ⟨sameDomain, sameStruct⟩ := typedString_binds keccak256 _ _ _ _
    (collisionFree.mono fun string member => by
      simp only [settlementStrings, Set.mem_ofPred_eq, List.mem_append] at member ⊢
      tauto) sameDigest
  obtain ⟨sameChain, sameContract⟩ := domainWords_injective keccak256 _ _ _ _ signed.chainFits
    signed'.chainFits sameDomain
  have sameWords := encodeWords_injective _ _
    (settlementWords_fit keccak256 first _ _ _ signed.incidentFits signed.unresolvedFits)
    (settlementWords_fit keccak256 second _ _ _ signed'.incidentFits signed'.unresolvedFits)
    sameStruct
  simp only [settlementWords, List.cons.injEq, true_and, and_true] at sameWords
  obtain ⟨sameIncident, sameRoot, sameUnresolved, samePayouts, samePools, sameClaimSet,
    samePcr⟩ := sameWords
  have payoutStrings := collisionFree (by simp [settlementStrings]) (by simp [settlementStrings])
    (Hash.ext_val samePayouts)
  have poolStrings := collisionFree (by simp [settlementStrings]) (by simp [settlementStrings])
    (Hash.ext_val samePools)
  have addressesFit : ∀ (addresses : List Address),
      ∀ word ∈ addresses.map Address.val, word < uintBound 256 := by
    intro addresses word member
    obtain ⟨address, -, rfl⟩ := List.mem_map.mp member
    exact address.val_lt_word
  have poolValues := encodeWords_injective _ _ (addressesFit _) (addressesFit _) poolStrings
  have addressInjective : Function.Injective Address.val := fun _ _ => Address.ext_val
  refine ⟨sameChain, sameContract, sameIncident, ?_, sameUnresolved,
    encodeWords_injective _ _ signed.payoutsFit signed'.payoutsFit payoutStrings,
    addressInjective.list_map poolValues, ?_, ?_⟩
  · rw [signed.rootRead, signed'.rootRead, Hash.ext_val sameRoot]
  · rw [signed.claimSetRead, signed'.claimSetRead, Hash.ext_val sameClaimSet]
  · rw [signed.pcrRead, signed'.pcrRead, Hash.ext_val samePcr]

/-- A settlement struct has eight words and an opening six. -/
theorem settlementDigest_ne_incidentOpenDigest (settlement : SettlementDigestInput)
    (opening : IncidentOpenDigestInput) (text : String)
    (run : settlementDigest keccak256 settlement = .ok text)
    (collisionFree : CollisionFree keccak256
      (settlementStrings keccak256 settlement ++ incidentOpenStrings keccak256 opening)) :
    incidentOpenDigest keccak256 opening ≠ .ok text := by
  intro openRun
  have signed := settlementDigest_signed keccak256 settlement text run
  have signed' := incidentOpenDigest_signed keccak256 opening text openRun
  have sameDigest := hashHex_injective (signed.signed.symm.trans signed'.signed)
  obtain ⟨-, sameStruct⟩ := typedString_binds keccak256 _ _ _ _
    (collisionFree.mono fun string member => by
      simp only [settlementStrings, incidentOpenStrings, Set.mem_ofPred_eq,
        List.mem_append] at member ⊢
      tauto) sameDigest
  have sameLength := congrArg List.length sameStruct
  simp [encodeWords_length, settlementWords, incidentOpenWords] at sameLength

end Binding

/-- The digests of the enclave are the contract's, they bind every field, and the two kinds
never meet. -/
theorem signed_digests_agree_and_bind (platform : Platform) :
    (∀ (insurance : Address) (incidentId : Nat) (incident : Incident) (root : Hash)
      (poolPayouts : List Nat) (input : SettlementDigestInput) (text : String),
      DescribesSettlement platform insurance incidentId incident root poolPayouts input →
      settlementDigest platform.keccak256 input = .ok text →
        text = hashHex
          (Chain.settlementDigest platform insurance incidentId incident root poolPayouts)) ∧
    (∀ (insurance : Address) (registry : Registry) (token : InsuredToken) (insuredToken : Address)
      (referenceBlock incidentId : Nat) (teePcrHash : Hash) (input : IncidentOpenDigestInput)
      (text : String),
      DescribesOpening platform insurance registry token insuredToken referenceBlock incidentId
        teePcrHash input →
      incidentOpenDigest platform.keccak256 input = .ok text →
        text = hashHex (Chain.incidentOpenDigest platform insurance registry token insuredToken
          referenceBlock incidentId teePcrHash)) ∧
    (∀ (first second : SettlementDigestInput) (text : String),
      settlementDigest platform.keccak256 first = .ok text →
      settlementDigest platform.keccak256 second = .ok text →
      CollisionFree platform.keccak256 (settlementStrings platform.keccak256 first ++
        settlementStrings platform.keccak256 second) →
        first.chainId = second.chainId ∧ first.verifyingContract = second.verifyingContract ∧
          first.incidentId = second.incidentId ∧
          hash32 "root" first.root = hash32 "root" second.root ∧
          first.unresolvedClaims = second.unresolvedClaims ∧
          first.poolPayouts = second.poolPayouts ∧ first.poolAddrs = second.poolAddrs ∧
          hash32 "claimSet" first.claimSet = hash32 "claimSet" second.claimSet ∧
          hash32 "teePcrHash" first.teePcrHash = hash32 "teePcrHash" second.teePcrHash) ∧
    ∀ (settlement : SettlementDigestInput) (opening : IncidentOpenDigestInput)
      (text : String),
      settlementDigest platform.keccak256 settlement = .ok text →
      CollisionFree platform.keccak256 (settlementStrings platform.keccak256 settlement ++
        incidentOpenStrings platform.keccak256 opening) →
        incidentOpenDigest platform.keccak256 opening ≠ .ok text :=
  ⟨settlementDigest_agrees platform, incidentOpenDigest_agrees platform,
    settlementDigest_binds platform.keccak256,
    settlementDigest_ne_incidentOpenDigest platform.keccak256⟩

/-- An incident of the small deployment, and its settlement as the enclave is given it. -/
def signedIncident : Incident :=
  { Chain.Incident.empty with
    unresolvedClaims := 2
    pools := [SmallDeployment.pool] }

def signedInput : SettlementDigestInput where
  chainId := 1
  verifyingContract := SmallDeployment.module
  incidentId := 1
  root := "0x40BBE1ADEBB01E17B0A40EFD2C74E760BEB615EA544A132EDFA78286D42DF54C"
  unresolvedClaims := 2
  poolPayouts := [498]
  poolAddrs := [SmallDeployment.pool]
  claimSet := hashHex Hash.zero
  teePcrHash := hashHex Hash.zero

theorem signedInput_agrees :
    ∃ text, settlementDigest SmallDeployment.platform.keccak256 signedInput = .ok text ∧
      text = hashHex (Chain.settlementDigest SmallDeployment.platform SmallDeployment.module 1
        signedIncident SmallDeployment.root [498]) := by
  have describes : DescribesSettlement SmallDeployment.platform SmallDeployment.module 1
      signedIncident SmallDeployment.root [498] signedInput :=
    ⟨rfl, rfl, rfl, by decide +kernel, rfl, rfl, rfl, hash32_hashHex _ _, hash32_hashHex _ _⟩
  have succeeds : (match settlementDigest SmallDeployment.platform.keccak256 signedInput with
      | .ok _ => true
      | .error _ => false) = true := by decide +kernel
  split at succeeds
  next text run =>
    exact ⟨text, run, (signed_digests_agree_and_bind SmallDeployment.platform).1
      _ _ _ _ _ _ text describes run⟩
  next => cases succeeds

end Usd8Core.Settlement
