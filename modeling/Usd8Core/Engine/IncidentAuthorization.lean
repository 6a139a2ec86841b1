import Usd8Core.Chain.System
import Usd8Core.Engine.IncidentDiscovery
import Usd8Core.Insurance.ModuleCalls
import Usd8Core.Settlement.SignedDigests

/-!
# Authorizing an opening

`build_incident_open` reads the contracts at the head, repeats their activity
test with the head's timestamp, discovers a reference block and signs the digest
that `fileClaim` recovers the signer from.  The block that executes the claim is
later than the head, and the age of the reference block is counted from there.
-/

set_option autoImplicit false

namespace Usd8Core.Engine

open Usd8Core.Lib.ByteWords
open Usd8Core.Lib.CheckedCall
open Usd8Core.Lib.TraceRun
open Usd8Core.Kernel (IncidentOpenDigestInput TypedDataError hash32_hashHex)
open Usd8Core.Chain (World Platform Registry DefiInsurance InsuredToken Block Call Tx step
  Reachable incidentOpenEligibilityHash)

/-! ## The provider -/

structure BlockAnchor where
  number : Nat
  hash : Hash
  timestamp : Nat

/-- The reads that travel in one request. -/
inductive ReadBatch where
  | insurance
  | configuration
  | previousIncident

/-- What a provider answers; a batch of contract reads is answered from one state. -/
structure OpenProvider where
  chainId : OpenCall Nat
  finalizedBlock : OpenCall BlockAnchor
  latestBlock : OpenCall BlockAnchor
  blockByNumber : Nat → OpenCall BlockAnchor
  stateAt : ReadBatch → Nat → OpenCall World
  conversionAt : Address → List Byte → List Nat → OpenCall (List (List Byte))

def unitRatio : Nat := 10 ^ 18

def decodeRatio (conversionAddress : Address) (result : List Byte) : OpenCall Nat := do
  revertIf (result.length ≠ 32) (.chain ("invalid conversion " ++ addressHex conversionAddress ++
    ": returned malformed uint256 data"))
  let ratio := beValue (result.map UInt8.toNat)
  revertIf (ratio = 0) (.chain ("invalid conversion " ++ addressHex conversionAddress ++
    ": returned non-positive ratio"))
  pure ratio

def ratiosAt (rpc : OpenProvider) (conversionAddress : Address) (conversionCallData : List Byte)
    (blocks : List Nat) : OpenCall (List Nat) :=
  if conversionAddress = Address.zero then pure (List.replicate blocks.length unitRatio)
  else do
    revertIf (blocks = [] ∨ blocks.length > 256 ∨ conversionCallData.length > 16 * 1024)
      (.chain "RPC batch exceeds 256 methods or 1048576 encoded request bytes")
    let results ← rpc.conversionAt conversionAddress conversionCallData blocks
    revertIf (results.length ≠ blocks.length)
      (.chain "invalid JSON-RPC response for eth_call: conversion batch result count mismatch")
    results.mapM (decodeRatio conversionAddress)

/-! ## The authorization -/

structure IncidentOpenAuthorization where
  schemaVersion : Nat
  artifactType : String
  chainId : Nat
  registry : String
  defiInsurance : String
  insuredToken : String
  referenceBlock : Nat
  observationBlock : Nat
  baselineTwap : String
  distressTwap : String
  baselineRatioSum : String
  distressRatioSum : String
  sampleCount : Nat
  twapBlocks : Nat
  sampleStepBlocks : Nat
  minimumDropBps : Nat
  eligibilityHash : String
  incidentId : String
  teePcrHash : String
  openDigest : String

def typedDataMessage : TypedDataError → String
  | .invalidHash field value =>
      "invalid " ++ field ++ ": expected 32-byte 0x-prefixed hex, got " ++ value
  | .uint256Overflow => "value exceeds uint256"

/-- A read of an address without code comes back empty. -/
def emptyRead : IncidentOpenError := .chain "Multicall3 failed or empty subcall"

/-- The activity test, with the timestamp of the head. -/
def previousActive (headTimestamp : Nat) (mod : DefiInsurance) (previousId : Nat) : Bool :=
  let previous := mod.incidents previousId
  if headTimestamp ≤ previous.phaseDeadline then true
  else if previous.unresolvedClaims = 0 then false
  else decide (headTimestamp ≤ previous.phaseDeadline + mod.incidentPhaseWindow previousId)

def checkPriceConfig (price : Chain.IncidentOpenPriceConfig) (maxAge : Nat) : OpenCall Unit :=
  revertIf (price.twapBlocks = 0 ∨ price.sampleStepBlocks = 0 ∨
      price.sampleStepBlocks > price.twapBlocks ∨
      price.twapBlocks % price.sampleStepBlocks ≠ 0 ∨
      price.twapBlocks / price.sampleStepBlocks < 2 ∨
      price.twapBlocks / price.sampleStepBlocks > maxIncidentOpenSamples ∨
      price.minimumDropBps = 0 ∨ price.minimumDropBps ≥ 10000 ∨ price.twapBlocks ≥ maxAge)
    .invalidPriceConfig

/-- The policy that a state and a finalized block fix. -/
def discoveryPolicy (registry : Registry) (latestBlock finalizedBlock : Nat) : DiscoveryPolicy where
  latestBlock := latestBlock
  finalizedBlock := finalizedBlock
  maxAge := registry.incidentTimingConfig.maxReferenceBlockAge
  twapBlocks := registry.incidentOpenPriceConfig.twapBlocks
  sampleStepBlocks := registry.incidentOpenPriceConfig.sampleStepBlocks
  minimumDropBps := registry.incidentOpenPriceConfig.minimumDropBps

def checkPrevious (rpc : OpenProvider) (head : BlockAnchor) (insurance : Address)
    (nextIncident : Nat) : OpenCall Unit :=
  if nextIncident > 1 then do
    let view ← rpc.stateAt .previousIncident head.number
    let mod ← orRevert (view.modules insurance) emptyRead
    revertIf (previousActive head.timestamp mod (nextIncident - 1) = true) .activeIncident
  else pure ()

/-- `build_incident_open`, for the chain id it was compiled for.  Only the Registry answers
the reads that go to the `registry` argument, and a module answers `registry()` with it. -/
def buildIncidentOpen (platform : Platform) (compiledChainId : Nat) (rpc : OpenProvider)
    (registry insuredToken expectedSigner : Address) : OpenCall IncidentOpenAuthorization := do
  let actualChainId ← rpc.chainId
  revertIf (actualChainId ≠ compiledChainId) (.chainId actualChainId compiledChainId)
  let finalized ← rpc.finalizedBlock
  let head ← rpc.latestBlock
  revertIf (finalized.number > head.number)
    (.finalizedAheadOfLatest finalized.number head.number)
  revertIf (registry ≠ platform.registryAddress) emptyRead
  let first ← rpc.stateAt .insurance head.number
  let insurance := first.registry.defiInsurance
  let view ← rpc.stateAt .configuration head.number
  let mod ← orRevert (view.modules insurance) emptyRead
  revertIf (platform.registryAddress ≠ registry) .registryMismatch
  let nextIncident := mod.nextIncidentId
  revertIf (nextIncident = 0) .zeroIncidentId
  let maxAge := view.registry.incidentTimingConfig.maxReferenceBlockAge
  let price := view.registry.incidentOpenPriceConfig
  checkPriceConfig price maxAge
  let token := mod.insuredTokens insuredToken
  revertIf (token.maxCoverageBps = 0) .unapprovedToken
  let eligibilityHash := hashHex (incidentOpenEligibilityHash platform view.registry token)
  revertIf (mod.isTeeSigner expectedSigner = false) .unauthorizedSigner
  let teePcrHash := view.registry.teePcrHash
  revertIf (teePcrHash = Hash.zero) .zeroPcrCommitment
  checkPrevious rpc head insurance nextIncident
  let selection ← discoverIncidentOpenTwap
    (ratiosAt rpc token.underlyingConversionAddress token.underlyingConversionCallData)
    (discoveryPolicy view.registry head.number finalized.number)
  revertIf (uintBound 64 ≤ selection.referenceBlock + price.twapBlocks) .invalidPriceConfig
  let baselineTwap ← checkedDiv selection.baselineSum selection.sampleCount
  let distressTwap ← checkedDiv selection.distressSum selection.sampleCount
  let digest ← (Kernel.incidentOpenDigest platform.keccak256
    ⟨actualChainId, insurance, insuredToken, selection.referenceBlock, nextIncident,
      hashHex teePcrHash, eligibilityHash⟩).mapError fun error => .typedData (typedDataMessage error)
  let finalizedAgain ← rpc.blockByNumber finalized.number
  revertIf (finalizedAgain.hash ≠ finalized.hash) .finalizedHeadChanged
  let headAgain ← rpc.blockByNumber head.number
  revertIf (headAgain.hash ≠ head.hash) .headChanged
  pure
    { schemaVersion := 1
      artifactType := "incidentOpen"
      chainId := actualChainId
      registry := addressHex registry
      defiInsurance := addressHex insurance
      insuredToken := addressHex insuredToken
      referenceBlock := selection.referenceBlock
      observationBlock := selection.referenceBlock + price.twapBlocks
      baselineTwap := toString baselineTwap
      distressTwap := toString distressTwap
      baselineRatioSum := toString selection.baselineSum
      distressRatioSum := toString selection.distressSum
      sampleCount := selection.sampleCount
      twapBlocks := price.twapBlocks
      sampleStepBlocks := price.sampleStepBlocks
      minimumDropBps := price.minimumDropBps
      eligibilityHash := eligibilityHash
      incidentId := toString nextIncident
      teePcrHash := hashHex teePcrHash
      openDigest := digest }

/-! ## An honest provider -/

/-- The answers of a conversion contract, by block. -/
abbrev Conversion := Address → List Byte → Nat → List Byte

/-- The ratio of a token at a block. -/
def tokenRatio (conversion : Conversion) (token : InsuredToken) (block : Nat) : Nat :=
  if token.underlyingConversionAddress = Address.zero then unitRatio
  else beValue ((conversion token.underlyingConversionAddress
    token.underlyingConversionCallData block).map UInt8.toNat)

/-- Requests may fail; the ones that are answered tell the state at the head. -/
structure Honest (platform : Platform) (rpc : OpenProvider) (w : World)
    (conversion : Conversion) : Prop where
  chainId : ∀ chainId, rpc.chainId = .ok chainId → chainId = platform.chainId
  latest : ∀ head, rpc.latestBlock = .ok head →
    head.number = w.block.number ∧ head.timestamp = w.block.timestamp
  state : ∀ batch view, rpc.stateAt batch w.block.number = .ok view → view = w
  conversion : ∀ address callData blocks results,
    rpc.conversionAt address callData blocks = .ok results →
      results = blocks.map (conversion address callData)

section Reads

variable {platform : Platform} {rpc : OpenProvider} {w : World} {conversion : Conversion}

theorem decodeRatio_ok (address : Address) (result : List Byte) (ratio : Nat)
    (run : decodeRatio address result = .ok ratio) :
    ratio = beValue (result.map UInt8.toNat) := by
  simp only [decodeRatio, bind_ok_iff, revertIf_ok_iff, pure_ok_iff, exists_const] at run
  exact run.2.2.symm

theorem Honest.ratios (honest : Honest platform rpc w conversion) (token : InsuredToken)
    (blocks ratios : List Nat)
    (run : ratiosAt rpc token.underlyingConversionAddress token.underlyingConversionCallData
      blocks = .ok ratios) :
    ratios = blocks.map (tokenRatio conversion token) := by
  unfold ratiosAt at run
  split at run
  next native =>
    have constant : tokenRatio conversion token = fun _ => unitRatio := by
      funext block
      simp [tokenRatio, native]
    rw [pure_ok_iff] at run
    rw [← run, constant, List.map_const']
  next foreign =>
    simp only [bind_ok_iff, revertIf_ok_iff, exists_const, mapM_ok_iff] at run
    obtain ⟨-, results, answered, -, decoded⟩ := run
    rw [honest.conversion _ _ _ _ answered, List.forall₂_map_left_iff] at decoded
    rw [eq_comm, ← List.forall₂_eq_eq_eq, List.forall₂_map_left_iff]
    refine decoded.imp fun block ratio one => ?_
    simp [tokenRatio, foreign, decodeRatio_ok _ _ _ one]

/-- Discovery over the reads that were answered is discovery over the ratios. -/
theorem Honest.discover (honest : Honest platform rpc w conversion) (token : InsuredToken)
    (policy : DiscoveryPolicy) (selection : TwapSelection)
    (run : discoverIncidentOpenTwap (ratiosAt rpc token.underlyingConversionAddress
      token.underlyingConversionCallData) policy = .ok selection) :
    discoverIncidentOpenTwap (ratiosOf (tokenRatio conversion token)) policy = .ok selection := by
  simp only [discoverIncidentOpenTwap, bind_ok_iff] at run ⊢
  obtain ⟨plan, planned, ratios, read, scanned⟩ := run
  rw [honest.ratios token _ _ read] at scanned
  exact ⟨plan, planned, _, rfl, scanned⟩

theorem callerChecked_of_priceConfig {registry : Registry} {latestBlock finalizedBlock : Nat}
    (passed : checkPriceConfig registry.incidentOpenPriceConfig
      registry.incidentTimingConfig.maxReferenceBlockAge = .ok ()) :
    CallerChecked (discoveryPolicy registry latestBlock finalizedBlock) := by
  simp only [checkPriceConfig, revertIf_ok_iff, not_or] at passed
  obtain ⟨-, step, -, whole, samples, -, drop, dropBelow, window⟩ := passed
  exact ⟨step, Nat.dvd_of_mod_eq_zero (not_not.mp whole), not_lt.mp samples,
    Nat.pos_of_ne_zero drop, not_le.mp dropBelow, not_le.mp window⟩

end Reads

/-! ## What an authorization says -/

/-- The facts behind an authorization that was built at the head. -/
structure Built (platform : Platform) (w : World) (ratio : Nat → Nat) (finalizedBlock : Nat)
    (insuredToken signer : Address) (mod : DefiInsurance) (auth : IncidentOpenAuthorization) :
    Prop where
  finalized : finalizedBlock ≤ w.block.number
  config : checkPriceConfig w.registry.incidentOpenPriceConfig
    w.registry.incidentTimingConfig.maxReferenceBlockAge = .ok ()
  approved : (mod.insuredTokens insuredToken).maxCoverageBps ≠ 0
  signer : mod.isTeeSigner signer = true
  idle : 1 < mod.nextIncidentId → previousActive w.now mod (mod.nextIncidentId - 1) = false
  discovered : ∃ selection, discoverIncidentOpenTwap (ratiosOf ratio)
      (discoveryPolicy w.registry w.block.number finalizedBlock) = .ok selection ∧
    selection.referenceBlock = auth.referenceBlock
  signed : auth.openDigest = hashHex (Chain.incidentOpenDigest platform
    w.registry.defiInsurance w.registry (mod.insuredTokens insuredToken) insuredToken
    auth.referenceBlock mod.nextIncidentId w.registry.teePcrHash)

section Building

variable {platform : Platform} {rpc : OpenProvider} {w : World} {conversion : Conversion}
  {compiledChainId : Nat} {registry insuredToken signer : Address} {finalized : BlockAnchor}
  {auth : IncidentOpenAuthorization}

theorem checkPrevious_ok {head : BlockAnchor} {mod : DefiInsurance}
    (honest : Honest platform rpc w conversion) (headNumber : head.number = w.block.number)
    (headTime : head.timestamp = w.block.timestamp)
    (present : w.modules w.registry.defiInsurance = some mod)
    (passed : checkPrevious rpc head w.registry.defiInsurance mod.nextIncidentId = .ok ()) :
    1 < mod.nextIncidentId → previousActive w.now mod (mod.nextIncidentId - 1) = false := by
  intro later
  rw [checkPrevious, if_pos later] at passed
  simp only [bind_ok_iff, orRevert_ok_iff, revertIf_ok_iff] at passed
  obtain ⟨view, answered, viewed, viewPresent, idle⟩ := passed
  rw [headNumber] at answered
  cases honest.state _ _ answered
  rw [present] at viewPresent
  cases viewPresent
  rw [headTime] at idle
  exact Bool.not_eq_true _ ▸ idle

theorem openDigest_signed {chainId referenceBlock incidentId : Nat} {insurance : Address}
    {registry : Registry} {token : InsuredToken} {teePcrHash : Hash} {digest : String}
    (sameChain : chainId = platform.chainId)
    (digested : ((Kernel.incidentOpenDigest platform.keccak256
      ⟨chainId, insurance, insuredToken, referenceBlock, incidentId, hashHex teePcrHash,
        hashHex (incidentOpenEligibilityHash platform registry token)⟩).mapError
          fun error => IncidentOpenError.typedData (typedDataMessage error)) = .ok digest) :
    digest = hashHex (Chain.incidentOpenDigest platform insurance registry token insuredToken
      referenceBlock incidentId teePcrHash) := by
  apply Settlement.incidentOpenDigest_agrees platform insurance registry token insuredToken
    referenceBlock incidentId teePcrHash _ digest _ ((mapError_ok_iff _ _ _).mp digested)
  exact ⟨sameChain, rfl, rfl, rfl, rfl, hash32_hashHex _ _, hash32_hashHex _ _⟩

theorem buildIncidentOpen_ok (honest : Honest platform rpc w conversion)
    (anchored : rpc.finalizedBlock = .ok finalized)
    (built : buildIncidentOpen platform compiledChainId rpc registry insuredToken signer =
      .ok auth) :
    ∃ mod, w.modules w.registry.defiInsurance = some mod ∧
      Built platform w (tokenRatio conversion (mod.insuredTokens insuredToken)) finalized.number
        insuredToken signer mod auth := by
  obtain ⟨chainId, chainRead, built⟩ := (bind_ok_iff _ _ _).mp built
  obtain ⟨_, -, built⟩ := (bind_ok_iff _ _ _).mp built
  obtain ⟨_, finalizedRead, built⟩ := (bind_ok_iff _ _ _).mp built
  cases anchored.symm.trans finalizedRead
  obtain ⟨head, headRead, built⟩ := (bind_ok_iff _ _ _).mp built
  obtain ⟨_, ordered, built⟩ := (bind_ok_iff _ _ _).mp built
  obtain ⟨_, -, built⟩ := (bind_ok_iff _ _ _).mp built
  obtain ⟨first, firstRead, built⟩ := (bind_ok_iff _ _ _).mp built
  obtain ⟨view, viewRead, built⟩ := (bind_ok_iff _ _ _).mp built
  obtain ⟨mod, present, built⟩ := (bind_ok_iff _ _ _).mp built
  obtain ⟨_, -, built⟩ := (bind_ok_iff _ _ _).mp built
  obtain ⟨_, -, built⟩ := (bind_ok_iff _ _ _).mp built
  obtain ⟨_, config, built⟩ := (bind_ok_iff _ _ _).mp built
  obtain ⟨_, approved, built⟩ := (bind_ok_iff _ _ _).mp built
  obtain ⟨_, authorized, built⟩ := (bind_ok_iff _ _ _).mp built
  obtain ⟨_, -, built⟩ := (bind_ok_iff _ _ _).mp built
  obtain ⟨_, previous, built⟩ := (bind_ok_iff _ _ _).mp built
  obtain ⟨selection, selected, built⟩ := (bind_ok_iff _ _ _).mp built
  obtain ⟨_, -, built⟩ := (bind_ok_iff _ _ _).mp built
  obtain ⟨_, -, built⟩ := (bind_ok_iff _ _ _).mp built
  obtain ⟨_, -, built⟩ := (bind_ok_iff _ _ _).mp built
  obtain ⟨digest, digested, built⟩ := (bind_ok_iff _ _ _).mp built
  obtain ⟨_, -, built⟩ := (bind_ok_iff _ _ _).mp built
  obtain ⟨_, -, built⟩ := (bind_ok_iff _ _ _).mp built
  obtain ⟨_, -, built⟩ := (bind_ok_iff _ _ _).mp built
  obtain ⟨_, -, built⟩ := (bind_ok_iff _ _ _).mp built
  cases (pure_ok_iff _ _).mp built
  obtain ⟨headNumber, headTime⟩ := honest.latest _ headRead
  rw [revertIf_ok_iff, headNumber, not_lt] at ordered
  rw [headNumber] at firstRead viewRead selected
  cases honest.state _ _ firstRead
  cases honest.state _ _ viewRead
  rw [orRevert_ok_iff] at present
  rw [revertIf_ok_iff] at approved authorized
  exact ⟨mod, present,
    { finalized := ordered
      config := config
      approved := approved
      signer := (Bool.not_eq_false _).mp authorized
      idle := checkPrevious_ok honest headNumber headTime present previous
      discovered := ⟨selection, honest.discover _ _ _ selected, rfl⟩
      signed := openDigest_signed (honest.chainId _ chainRead) digested }⟩

end Building

/-! ## The block that executes the claim -/

/-- The next block, when nothing that the opening depends on has changed. -/
structure SameOpening (w next : World) (insuredToken signer : Address) (mod nextMod : DefiInsurance) :
    Prop where
  number : next.block.number = w.block.number + 1
  later : w.block.timestamp ≤ next.block.timestamp
  insurance : next.registry.defiInsurance = w.registry.defiInsurance
  maxAge : next.registry.incidentTimingConfig.maxReferenceBlockAge =
    w.registry.incidentTimingConfig.maxReferenceBlockAge
  price : next.registry.incidentOpenPriceConfig = w.registry.incidentOpenPriceConfig
  teePcrHash : next.registry.teePcrHash = w.registry.teePcrHash
  nextIncidentId : nextMod.nextIncidentId = mod.nextIncidentId
  token : nextMod.insuredTokens insuredToken = mod.insuredTokens insuredToken
  signer : nextMod.isTeeSigner signer = mod.isTeeSigner signer
  deadline : (nextMod.incidents (mod.nextIncidentId - 1)).phaseDeadline =
    (mod.incidents (mod.nextIncidentId - 1)).phaseDeadline
  unresolved : (nextMod.incidents (mod.nextIncidentId - 1)).unresolvedClaims =
    (mod.incidents (mod.nextIncidentId - 1)).unresolvedClaims
  phaseWindow : nextMod.incidentPhaseWindow (mod.nextIncidentId - 1) =
    mod.incidentPhaseWindow (mod.nextIncidentId - 1)

/-- The checks that `fileClaim` and `_openIncident` put an authorization through. -/
structure Accepted (platform : Platform) (w : World) (insuredToken signer : Address)
    (mod : DefiInsurance) (auth : IncidentOpenAuthorization) : Prop where
  nonzero : auth.referenceBlock ≠ 0
  past : auth.referenceBlock < w.block.number
  recent : w.block.number - auth.referenceBlock ≤
    w.registry.incidentTimingConfig.maxReferenceBlockAge
  idle : mod.activeIncidentId w.now = 0
  signed : auth.openDigest = hashHex (Chain.incidentOpenDigest platform
    w.registry.defiInsurance w.registry (mod.insuredTokens insuredToken) insuredToken
    auth.referenceBlock mod.nextIncidentId w.registry.teePcrHash)
  signer : mod.isTeeSigner signer = true
  approved : (mod.insuredTokens insuredToken).maxCoverageBps ≠ 0

/-- The oldest block that discovery considers is a candidate, and the last drop run starts
there. -/
def StartsAtOldest (w : World) (conversion : Conversion) (insuredToken : Address)
    (mod : DefiInsurance) (finalizedBlock : Nat) : Prop :=
  ∃ last, LastDropRun (tokenRatio conversion (mod.insuredTokens insuredToken))
    (discoveryPolicy w.registry w.block.number finalizedBlock)
    (w.block.number - w.registry.incidentTimingConfig.maxReferenceBlockAge) last

section Opening

variable {platform : Platform} {rpc : OpenProvider} {w next : World} {conversion : Conversion}
  {compiledChainId : Nat} {registry insuredToken signer : Address} {finalized : BlockAnchor}
  {mod nextMod : DefiInsurance} {auth : IncidentOpenAuthorization}

/-- An incident that is over at the head is over later. -/
theorem idle_later (same : SameOpening w next insuredToken signer mod nextMod)
    (idle : 1 < mod.nextIncidentId → previousActive w.now mod (mod.nextIncidentId - 1) = false) :
    nextMod.activeIncidentId next.now = 0 := by
  have later : w.now ≤ next.now := same.later
  simp only [DefiInsurance.activeIncidentId, same.nextIncidentId, same.deadline, same.unresolved,
    same.phaseWindow]
  by_cases opened : 1 < mod.nextIncidentId
  · have ended := idle opened
    simp only [previousActive] at ended
    split at ended
    next => cases ended
    next past =>
      split at ended
      next resolved => simp [resolved, not_le.mpr (lt_of_lt_of_le (not_le.mp past) later)]
      next =>
        rw [decide_eq_false_iff_not, not_le] at ended
        have beyond := not_le.mpr (lt_of_lt_of_le ended later)
        simp [beyond, not_le.mpr (lt_of_lt_of_le (not_le.mp past) later)]
  · simp [show mod.nextIncidentId - 1 = 0 by omega]

/-- Only one block starts the last drop run. -/
theorem lastDropRun_unique {ratio : Nat → Nat} {policy : DiscoveryPolicy}
    (checked : CallerChecked policy) (discoverable : Discoverable policy) {first second : Nat}
    (one : ∃ last, LastDropRun ratio policy first last)
    (other : ∃ last, LastDropRun ratio policy second last) : first = second := by
  obtain ⟨index, starts, rfl⟩ := (lastDropRun_iff ratio checked discoverable first).mp one
  obtain ⟨otherIndex, otherStarts, rfl⟩ :=
    (lastDropRun_iff ratio checked discoverable second).mp other
  rw [starts] at otherStarts
  cases otherStarts
  rfl

/-- The reference block is a candidate at the head: it is one too old in the next block only
when it is the oldest one. -/
theorem age_next_block {policy : DiscoveryPolicy} {reference : Nat}
    (isCandidate : Candidate policy reference) (ordered : policy.finalizedBlock ≤ policy.latestBlock) :
    reference ≠ 0 ∧ reference < policy.latestBlock + 1 ∧
      (policy.latestBlock + 1 - reference ≤ policy.maxAge ↔
        reference ≠ policy.latestBlock - policy.maxAge) := by
  obtain ⟨-, above, below⟩ := isCandidate
  omega

/-- An accepted authorization passes every check of `_openIncident` but the pause: what can
still fail is the settlement of the pools and the machine words of the record. -/
theorem Accepted.openIncident_error (accepted : Accepted platform w insuredToken signer mod auth)
    (present : w.modules w.registry.defiInsurance = some mod)
    (unpaused : w.registry.paused w.registry.defiInsurance = false)
    (error : Chain.ContractError)
    (failed : w.openIncident w.registry.defiInsurance insuredToken auth.referenceBlock
      w.registry.teePcrHash = .error error) :
    w.settleListedPools w.registry.defiInsurance = .error error ∨ error = .panic .overflow := by
  have found : w.getModule w.registry.defiInsurance = .ok mod :=
    (Insurance.getModule_ok_iff mod).mpr present
  have checks : ¬ (auth.referenceBlock = 0 ∨ auth.referenceBlock ≥ w.block.number ∨
      w.block.number - auth.referenceBlock >
        w.registry.incidentTimingConfig.maxReferenceBlockAge) := by
    have nonzero := accepted.nonzero
    have past := accepted.past
    have recent := accepted.recent
    omega
  have running : Chain.requireNotPaused w.registry w.registry.defiInsurance = .ok () := by
    simp [Chain.requireNotPaused, revertIf, unpaused]
  have registered : w.requireRegistered w.registry.defiInsurance = .ok () := by
    simp [World.requireRegistered, revertIf]
  unfold World.openIncident at failed
  rw [bind_after running, bind_after found,
    bind_after ((revertIf_ok_iff _ _ ()).mpr accepted.approved),
    bind_after ((revertIf_ok_iff _ _ ()).mpr (not_not.mpr accepted.idle)), bind_after registered,
    bind_after ((revertIf_ok_iff _ _ ()).mpr checks), bind_error_iff] at failed
  rcases failed with failed | ⟨settled, settledRun, failed⟩
  · exact .inl failed
  · have only := Insurance.settleListedPools_onlyPools settledRun
    have stillFound : settled.getModule w.registry.defiInsurance = .ok mod := by
      rw [Insurance.getModule_ok_iff, only.modules, present]
    rw [bind_after stillFound, bind_error_iff] at failed
    rcases failed with failed | ⟨_, -, failed⟩
    · exact .inr (checkedAdd_error failed)
    · rw [bind_error_iff] at failed
      rcases failed with failed | ⟨_, -, failed⟩
      · exact .inr (checkedAdd_error failed)
      · cases failed

/-- An authorization is accepted in the next block, unless the drop starts at the oldest
block that was considered. -/
theorem fresh_authorization_usable_iff (honest : Honest platform rpc w conversion)
    (anchored : rpc.finalizedBlock = .ok finalized)
    (built : buildIncidentOpen platform compiledChainId rpc registry insuredToken signer =
      .ok auth)
    (present : w.modules w.registry.defiInsurance = some mod)
    (same : SameOpening w next insuredToken signer mod nextMod) :
    Accepted platform next insuredToken signer nextMod auth ↔
      ¬ StartsAtOldest w conversion insuredToken mod finalized.number := by
  obtain ⟨readMod, readPresent, facts⟩ := buildIncidentOpen_ok honest anchored built
  cases present.symm.trans readPresent
  obtain ⟨selection, discovered, reference⟩ := facts.discovered
  have checked : CallerChecked (discoveryPolicy w.registry w.block.number finalized.number) :=
    callerChecked_of_priceConfig facts.config
  have fits : PolicyFits (discoveryPolicy w.registry w.block.number finalized.number) :=
    ⟨w.block.number_lt, facts.finalized⟩
  obtain ⟨small, lastRun, -⟩ := (discovery_ok_iff _ checked fits _).mp discovered
  rw [reference] at lastRun
  obtain ⟨last, run, latest⟩ := lastRun
  have isCandidate := (run.all _ run.starts le_rfl run.ordered).1
  have discoverable := Discoverable.of_candidate checked isCandidate small
  obtain ⟨nonzero, past, age⟩ := age_next_block isCandidate facts.finalized
  have oldest : StartsAtOldest w conversion insuredToken mod finalized.number ↔
      auth.referenceBlock = w.block.number - w.registry.incidentTimingConfig.maxReferenceBlockAge := by
    constructor
    · intro starts
      exact lastDropRun_unique checked discoverable ⟨last, run, latest⟩ starts
    · intro reached
      unfold StartsAtOldest
      rw [← reached]
      exact ⟨last, run, latest⟩
  rw [oldest]
  constructor
  · intro accepted
    have recent := accepted.recent
    rw [same.number, same.maxAge] at recent
    exact age.mp recent
  · intro younger
    exact
      { nonzero := nonzero
        past := by
          rw [same.number]
          exact past
        recent := by
          rw [same.number, same.maxAge]
          exact age.mpr younger
        idle := idle_later same facts.idle
        signed := by
          rw [facts.signed, same.insurance, same.token, same.nextIncidentId, same.teePcrHash]
          simp only [Chain.incidentOpenDigest, incidentOpenEligibilityHash, same.price]
        signer := same.signer.trans facts.signer
        approved := by
          rw [same.token]
          exact facts.approved }

end Opening

/-! ## The small deployment at the boundary -/

namespace SmallDeployment

open Chain.SmallDeployment

def vault : Address := Address.ofNat 41

/-- The price halves after block 7200. -/
def halvingConversion : Conversion :=
  fun _ _ block => wordBytes (if block ≤ 7200 then 100 else 50)

/-- A module with one insured token and a signer, and then the block at the head. -/
def listing (head : Block) : List Tx :=
  [.registry timelock (.setUsd8 usd8), .registry timelock (.setTreasury treasury),
    .registry timelock (.setTeePcrHash root), .deployModule module,
    .registry timelock (.setDefiInsurance module), .module module timelock (.setTeeSigner signer true),
    .module module timelock (.editInsuredToken insuredToken ⟨8000, oracle, vault, [7]⟩),
    .mine head]

/-- A provider that answers every request, with the head finalized. -/
def provider (w : World) : OpenProvider where
  chainId := .ok platform.chainId
  finalizedBlock := .ok ⟨w.block.number, Hash.zero, w.now⟩
  latestBlock := .ok ⟨w.block.number, Hash.zero, w.now⟩
  blockByNumber := fun number => .ok ⟨number, Hash.zero, w.now⟩
  stateAt := fun _ _ => .ok w
  conversionAt := fun address callData blocks => .ok (blocks.map (halvingConversion address callData))

theorem provider_honest (w : World) : Honest platform (provider w) w halvingConversion := by
  constructor
  case latest =>
    rintro head ⟨⟩
    exact ⟨rfl, rfl⟩
  all_goals simp [provider, eq_comm]

def openingAt (w : World) : OpenCall IncidentOpenAuthorization :=
  buildIncidentOpen platform 1 (provider w) platform.registryAddress insuredToken signer

/-- Whether an authorization for the reference block is built at the head. -/
def authorizes (head reference : Nat) (w : World) : Bool :=
  decide (w.block.number = head ∧ w.now = 2000000 ∧
    w.registry.incidentTimingConfig.maxReferenceBlockAge = 43200 ∧
    w.registry.incidentOpenPriceConfig.sampleStepBlocks = 300) &&
  (w.modules w.registry.defiInsurance).isSome &&
  match openingAt w with
  | .ok auth => auth.referenceBlock == reference
  | .error _ => false

theorem authorizes_eq {head reference : Nat} {w : World}
    (checked : authorizes head reference w = true) :
    (w.block.number = head ∧ w.now = 2000000 ∧
      w.registry.incidentTimingConfig.maxReferenceBlockAge = 43200 ∧
      w.registry.incidentOpenPriceConfig.sampleStepBlocks = 300) ∧
    (∃ mod, w.modules w.registry.defiInsurance = some mod) ∧
      ∃ auth, openingAt w = .ok auth ∧ auth.referenceBlock = reference := by
  simp only [authorizes, Bool.and_eq_true, decide_eq_true_eq, Option.isSome_iff_exists] at checked
  obtain ⟨⟨facts, present⟩, opening⟩ := checked
  refine ⟨facts, present, ?_⟩
  split at opening
  next auth built => exact ⟨auth, built, beq_iff_eq.mp opening⟩
  next => cases opening

/-- The next block, twelve seconds later. -/
def nextBlock (head : Nat) (fits : head + 1 < uintBound 64) : Block where
  number := head + 1
  timestamp := 2000012
  number_lt := fits
  timestamp_lt := by decide

def afterBlock (w : World) (block : Block) : World := { w with block := block }

theorem mine_next {head : Nat} (fits : head + 1 < uintBound 64) {w : World}
    (number : w.block.number = head) (time : w.now = 2000000) :
    step platform w (.mine (nextBlock head fits)) = .ok (afterBlock w (nextBlock head fits)) := by
  have passes : ¬ ((nextBlock head fits).number ≤ w.block.number ∨
      (nextBlock head fits).timestamp < w.block.timestamp) := by
    rw [World.now] at time
    simp [nextBlock, number, time]
  change w.mine _ = _
  rw [World.mine, bind_after ((revertIf_ok_iff _ _ ()).mpr passes)]
  rfl

theorem sameOpening_next {head : Nat} (fits : head + 1 < uintBound 64) {w : World}
    (number : w.block.number = head) (time : w.now = 2000000) (mod : DefiInsurance) :
    SameOpening w (afterBlock w (nextBlock head fits)) insuredToken signer mod mod := by
  constructor
  case number => simp [afterBlock, nextBlock, number]
  case later =>
    rw [World.now] at time
    simp [afterBlock, nextBlock, time]
  all_goals rfl

/-- The drop starts exactly 43200 blocks before the head: the authorization is expired in the
next block, the first one that can execute it. -/
theorem oldest_reference_expires :
    ∃ w next mod auth, Reachable platform w ∧
      Honest platform (provider w) w halvingConversion ∧
      w.modules w.registry.defiInsurance = some mod ∧
      buildIncidentOpen platform 1 (provider w) platform.registryAddress insuredToken signer =
        .ok auth ∧
      step platform w (.mine (nextBlock 50400 (by decide))) = .ok next ∧
      SameOpening w next insuredToken signer mod mod ∧
      ¬ Accepted platform next insuredToken signer mod auth ∧
      next.block.number - auth.referenceBlock =
        next.registry.incidentTimingConfig.maxReferenceBlockAge + 1 := by
  obtain ⟨steps, w, run, checked⟩ := Chain.SmallDeployment.reaches
    (listing ⟨50400, 2000000, by decide, by decide⟩) (authorizes 50400 7200) (by decide +kernel)
  obtain ⟨⟨number, time, maxAge, -⟩, ⟨mod, present⟩, auth, built, reference⟩ :=
    authorizes_eq checked
  have age : (afterBlock w (nextBlock 50400 (by decide))).block.number - auth.referenceBlock =
      (afterBlock w (nextBlock 50400 (by decide))).registry.incidentTimingConfig.maxReferenceBlockAge
        + 1 := by
    simp [afterBlock, nextBlock, reference, maxAge]
  refine ⟨w, afterBlock w (nextBlock 50400 (by decide)), mod, auth, ⟨steps, run⟩, provider_honest w,
    present, built, mine_next _ number time, sameOpening_next _ number time mod, ?_, age⟩
  intro accepted
  have recent := accepted.recent
  omega

/-- One block later the oldest block is no multiple of the step, and the authorization for
the first multiple after it is accepted. -/
theorem younger_reference_accepted :
    ∃ w next mod auth, Reachable platform w ∧
      buildIncidentOpen platform 1 (provider w) platform.registryAddress insuredToken signer =
        .ok auth ∧
      step platform w (.mine (nextBlock 50401 (by decide))) = .ok next ∧
      Accepted platform next insuredToken signer mod auth := by
  obtain ⟨steps, w, run, checked⟩ := Chain.SmallDeployment.reaches
    (listing ⟨50401, 2000000, by decide, by decide⟩) (authorizes 50401 7500) (by decide +kernel)
  obtain ⟨⟨number, time, maxAge, sampleStep⟩, ⟨mod, present⟩, auth, built, -⟩ :=
    authorizes_eq checked
  refine ⟨w, afterBlock w (nextBlock 50401 (by decide)), mod, auth, ⟨steps, run⟩, built,
    mine_next _ number time, ?_⟩
  apply (fresh_authorization_usable_iff (provider_honest w) rfl built present
    (sameOpening_next _ number time mod)).mpr
  rintro ⟨last, starting⟩
  have multiple := starting.1.starts
  rw [number, maxAge] at multiple
  change w.registry.incidentOpenPriceConfig.sampleStepBlocks ∣ 50401 - 43200 at multiple
  rw [sampleStep] at multiple
  revert multiple
  decide

end SmallDeployment

end Usd8Core.Engine
