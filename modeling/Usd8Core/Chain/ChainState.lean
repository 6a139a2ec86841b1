import Usd8Core.Lib.ByteWords
import Usd8Core.Lib.CheckedCall
import Usd8Core.Lib.FiniteLedger

/-!
# Storage of the contracts and the tokens around them

One `World` holds the Registry, every deployed insurance module and cover pool,
the standard ERC-20 and ERC-1155 ledgers they move, the current block and the
logs emitted so far.  Unsigned integers are naturals; the operations that could
leave their width are checked where the contracts check them.
-/

set_option autoImplicit false

namespace Usd8Core.Chain

open Usd8Core.Lib.ByteWords
open Usd8Core.Lib.CheckedCall
open Usd8Core.Lib.FiniteLedger

/-! ## Reverts -/

inductive ContractError where
  | panic (reason : Panic)
  | abiDecode
  | noCode (target : Address)
  | callerIsContract (caller : Address)
  -- OpenZeppelin
  | safeCastOverflow (width value : Nat)
  | erc20InsufficientBalance (token sender : Address)
  | erc20InvalidReceiver (receiver : Address)
  | erc20InvalidSender (sender : Address)
  | erc1155InsufficientBalance (collection sender : Address)
  | erc1155InvalidReceiver (receiver : Address)
  | erc4626ExceededMaxDeposit (receiver : Address) (assets limit : Nat)
  | erc4626ExceededMaxMint (receiver : Address) (shares limit : Nat)
  | ecdsaInvalidSignature
  | ecdsaInvalidSignatureLength (length : Nat)
  -- Registry
  | unauthorizedTimelock (caller : Address)
  | unauthorizedAdmin (caller : Address)
  | paused
  | zeroAddress
  | frozen
  | poolExists (asset : Address)
  | poolNotFound (asset : Address)
  | invalidMaxCoverPoolPayoutBps (bps : Nat)
  | unauthorizedModule (caller : Address)
  | candidateIncidentActive (module : Address) (incidentId : Nat)
  | moduleChanged (expected actual : Address)
  | incidentChanged (expected actual : Nat)
  | invalidTeePcrHash
  | nonIncreasingScoredRateBlock (token : Address) (previousBlock newBlock : Nat)
  | invalidOracleStaleness
  | invalidAssetUsdFeed (feed : Address)
  | invalidIncidentTimingConfig
  | invalidExitTimingConfig
  | invalidIncidentOpenPriceConfig
  | boosterConfigAlreadySet
  | invalidBoosterBoostBps
  | usd8AlreadySet
  | treasuryAlreadySet
  | savingsVaultAlreadySet
  | invalidProtocolFeeBps (bps : Nat)
  -- SharedBase
  | invalidSweepRecipient (recipient : Address)
  | nothingToSweep (token : Address)
  | notBetaMode
  -- SingleAssetCoverPool
  | zeroAmount
  | invalidRewardsDuration
  | noEligibleStakers
  | insufficientShares (requested available : Nat)
  | rewardRateTooHigh
  | noUnstakeRequest
  | unstakeRequestExists
  | poolFrozen
  | notDefiInsurance (caller : Address)
  | payoutExceedsPoolAssets (requested available : Nat)
  | invalidRecipient
  | feeOnTransferUnsupported
  | shareSupplyHeadroomExceeded (requested available : Nat)
  | rewardRateZero (total duration : Nat)
  | cooldownNotElapsed (exitEpoch : Nat)
  -- DefiInsurance
  | invalidMaxCoverageBps (given max : Nat)
  | invalidReferenceBlock (referenceBlock : Nat)
  | insuredTokenNotApproved (token : Address)
  | claimWindowClosed (token : Address) (claimDeadline : Nat)
  | unauthorizedClaim (claimId : Nat)
  | claimAlreadyResolved (claimId : Nat)
  | duplicateClaim (incidentId : Nat)
  | noActiveClaim
  | notActiveIncident (incidentId : Nat)
  | incidentFinalizing (incidentId : Nat)
  | outsideSettlementPhase (incidentId : Nat)
  | noStandingRoot (incidentId : Nat)
  | alreadySettled (incidentId : Nat)
  | finalizeNotOpen (incidentId : Nat)
  | invalidProof (claimId : Nat)
  | eligibleExceedsEscrow (eligibleAmount escrow : Nat)
  | invalidBoostedScore (provided expected : Nat)
  | incidentsActive
  | incidentTokenMismatch (incidentId : Nat) (expectedToken suppliedToken : Address)
  | invalidSettlementParams
  | unexpectedOpenAttestation
  | unauthorizedOpenSigner (recovered : Address)
  | unauthorizedSettlementSigner (recovered : Address)
  | settlementPoolMismatch (given expected : Nat)
  | payoutCapExceeded (poolIndex requested cap : Nat)
  | defiInsuranceNotRegistered

instance : HasPanic ContractError := ⟨ContractError.panic⟩

@[simp] theorem panic_eq (reason : Panic) :
    (HasPanic.panic reason : ContractError) = .panic reason := rfl

/-- A call into the contracts. -/
abbrev Call := Except ContractError

/-! ## Logs -/

inductive Event where
  | incidentOpened (incidentId : Nat) (insuredToken : Address) (claimDeadline feeBps : Nat)
  | incidentSettled (incidentId : Nat) (root teePcrHash : Hash)
  | incidentCorrected (incidentId : Nat) (root : Hash)
  | claimRegistered (claimId incidentId : Nat) (user : Address)
      (insuredTokenAmount scoreToSpend boosterAmount : Nat)
  | claimFinalized (claimId : Nat) (user : Address)
  | protocolFeePaid (incidentId : Nat) (pool receiver : Address) (amount : Nat)
  | claimCancelled (claimId : Nat) (user : Address)
  | claimDeclined (claimId : Nat) (user : Address) (eligible : Bool)
  | scoreSpent (user : Address) (amount incidentId : Nat)
  | insuredTokenRemoved (token : Address)
  | scoreSpentRecorded (account : Address) (amount newTotal : Nat)
  | tokenSwept (token recipient : Address) (amount : Nat)
  | redeemRequested (user : Address) (shares : Nat)
  | exitEpochSettled (exitEpoch shares assets : Nat)
  | exitClaimed (user receiver : Address) (shares assets : Nat)
  | rewardClaimed (user : Address) (amount : Nat)
  | rewardNotified (amount newRate newPeriodFinish : Nat)
  | claimPaid (recipient : Address) (amount : Nat)
  deriving DecidableEq

structure Log where
  emitter : Address
  blockNumber : Nat
  logIndex : Nat
  event : Event

/-! ## Registry -/

def bpsDenominator : Nat := 10000

def maxProtocolFeeBps : Nat := 2000

structure ProtocolFeeConfig where
  receiver : Address
  claimProtocolFeeShareBps : Nat
  reserveYieldFeeBps : Nat

structure IncidentTimingConfig where
  phaseWindow : Nat
  maxReferenceBlockAge : Nat

structure ExitTimingConfig where
  unstakeCooldown : Nat
  exitBatchInterval : Nat

structure IncidentOpenPriceConfig where
  twapBlocks : Nat
  sampleStepBlocks : Nat
  minimumDropBps : Nat

structure RatePoint where
  fromBlock : Nat
  rate : Nat

structure BoosterConfig where
  collection : Address
  tokenId : Nat
  boostBps : Nat

structure Registry where
  timelock : Address
  isAdmin : Address → Bool
  paused : Address → Bool
  coverPoolAssets : List Address
  coverPool : Address → Address
  defiInsurance : Address
  maxCoverPoolPayoutBps : Nat
  protocolFeeConfig : ProtocolFeeConfig
  scoredTokenList : List Address
  scoredRates : Address → List RatePoint
  boosterConfig : BoosterConfig
  scoreSpent : Address → Nat
  betaMode : Bool
  teePcrHash : Hash
  usd8 : Address
  treasury : Address
  savingsVault : Address
  usd8PriceOracle : Address
  assetUsdFeed : Address → Address
  maxOracleStaleness : Nat
  incidentTimingConfig : IncidentTimingConfig
  exitTimingConfig : ExitTimingConfig
  incidentOpenPriceConfig : IncidentOpenPriceConfig

/-! ## Cover pool -/

@[irreducible] def rewardScale : Nat := 10 ^ 30

def maxRewardsDuration : Nat := 365 * 24 * 60 * 60

structure RewardState where
  userRewardPerSharePaid : Nat
  rewards : Nat

structure ExitRequest where
  shares : Nat
  exitEpoch : Nat

structure ExitEpoch where
  totalShares : Nat
  totalAssets : Nat
  remainingShares : Nat
  remainingAssets : Nat

structure SingleAssetCoverPool where
  asset : Address
  usd8 : Address
  rewardsDuration : Nat
  accountedAssets : Nat
  rewardRate : Nat
  periodFinish : Nat
  lastUpdateTime : Nat
  rewardPerShareStored : Nat
  rewardReserve : Nat
  rewardState : Address → RewardState
  exitRequests : Address → ExitRequest
  depositCap : Nat
  exitEpochs : Nat → ExitEpoch
  nextExitEpochIndex : Nat
  withdrawalReserve : Nat
  exitEpochQueue : List Nat
  rewardResidual : Nat
  balances : Address → Nat
  totalSupply : Nat

/-- A pool after `initialize`. -/
def SingleAssetCoverPool.initial (asset usd8 : Address) : SingleAssetCoverPool where
  asset := asset
  usd8 := usd8
  rewardsDuration := 7 * 24 * 60 * 60
  accountedAssets := 0
  rewardRate := 0
  periodFinish := 0
  lastUpdateTime := 0
  rewardPerShareStored := 0
  rewardReserve := 0
  rewardState := fun _ => ⟨0, 0⟩
  exitRequests := fun _ => ⟨0, 0⟩
  depositCap := 0
  exitEpochs := fun _ => ⟨0, 0, 0, 0⟩
  nextExitEpochIndex := 0
  withdrawalReserve := 0
  exitEpochQueue := []
  rewardResidual := 0
  balances := fun _ => 0
  totalSupply := 0

/-! ## Insurance module -/

def maxClaimantCoverageBps : Nat := 8000

structure InsuredToken where
  maxCoverageBps : Nat
  underlyingPriceOracle : Address
  underlyingConversionAddress : Address
  underlyingConversionCallData : List Byte

structure Incident where
  insuredToken : Address
  resolvedAt : Nat
  referenceBlock : Nat
  openBlock : Nat
  phaseDeadline : Nat
  root : Hash
  unresolvedClaims : Nat
  claimSetHash : Hash
  teePcrHash : Hash
  pools : List Address
  poolBudget : List Nat
  protocolFeeShareBps : Nat

structure Claim where
  user : Address
  incidentId : Nat
  insuredTokenAmount : Nat
  boosterAmount : Nat
  bondAmount : Nat
  resolved : Bool

structure SettlementParams where
  twapLookbackBlocks : Nat
  minHoldingRequired : Nat
  sampleStepBlocks : Nat

structure DefiInsurance where
  isTeeSigner : Address → Bool
  insuredTokens : Address → InsuredToken
  incidents : Nat → Incident
  incidentPhaseWindow : Nat → Nat
  nextIncidentId : Nat
  nextClaimId : Nat
  claimBondAmount : Nat
  claims : Nat → Claim
  claimIdByIncidentAndUser : Nat → Address → Nat
  escrowedInsuredTokens : Address → Nat
  settlementParams : SettlementParams
  escrowedClaimBonds : Nat

/-- An incident slot that was never opened. -/
def Incident.empty : Incident where
  insuredToken := Address.zero
  resolvedAt := 0
  referenceBlock := 0
  openBlock := 0
  phaseDeadline := 0
  root := Hash.zero
  unresolvedClaims := 0
  claimSetHash := Hash.zero
  teePcrHash := Hash.zero
  pools := []
  poolBudget := []
  protocolFeeShareBps := 0

/-- A claim slot that was never filed. -/
def Claim.empty : Claim := ⟨Address.zero, 0, 0, 0, 0, false⟩

/-- A module after `initialize`. -/
def DefiInsurance.initial : DefiInsurance where
  isTeeSigner := fun _ => false
  insuredTokens := fun _ => ⟨0, Address.zero, Address.zero, []⟩
  incidents := fun _ => Incident.empty
  incidentPhaseWindow := fun _ => 0
  nextIncidentId := 1
  nextClaimId := 1
  claimBondAmount := 10 * 10 ^ 18
  claims := fun _ => Claim.empty
  claimIdByIncidentAndUser := fun _ _ => 0
  escrowedInsuredTokens := fun _ => 0
  settlementParams := ⟨50400, 50400, 300⟩
  escrowedClaimBonds := 0

/-! ## The world -/

/-- A block header; both quantities are 64-bit fields of the header. -/
structure Block where
  number : Nat
  timestamp : Nat
  number_lt : number < uintBound 64
  timestamp_lt : timestamp < uintBound 64

/-- Balances by token and holder. -/
abbrev Erc20 := Address → Address → Nat

/-- Balances by collection, token id and holder. -/
abbrev Erc1155 := Address → Nat → Address → Nat

structure World where
  block : Block
  registry : Registry
  modules : Address → Option DefiInsurance
  pools : Address → Option SingleAssetCoverPool
  erc20 : Erc20
  erc1155 : Erc1155
  logs : List Log

/-- What a deployment fixes beside the contracts: the hash, signature recovery
(`none` when recovery reverts), the chain id and the Registry's address. -/
structure Platform where
  keccak256 : List Byte → Hash
  ecdsaRecover : Hash → List Byte → Option Address
  chainId : Nat
  registryAddress : Address

namespace World

def now (w : World) : Nat := w.block.timestamp

def nextLogIndex (w : World) : Nat :=
  match w.logs.getLast? with
  | none => 0
  | some last => if last.blockNumber = w.block.number then last.logIndex + 1 else 0

def emit (w : World) (emitter : Address) (event : Event) : World :=
  { w with logs := w.logs ++ [⟨emitter, w.block.number, w.nextLogIndex, event⟩] }

def emitAll (w : World) (emitter : Address) (events : List Event) : World :=
  events.foldl (fun world event => world.emit emitter event) w

def getModule (w : World) (m : Address) : Call DefiInsurance :=
  orRevert (w.modules m) (.noCode m)

def getPool (w : World) (p : Address) : Call SingleAssetCoverPool :=
  orRevert (w.pools p) (.noCode p)

def setModule (w : World) (m : Address) (storage : DefiInsurance) : World :=
  { w with modules := Function.update w.modules m (some storage) }

end World

/-! ## Standard token transfers -/

/-- A transfer of a standard ERC-20 through `SafeERC20`; the zero address has no code. -/
def erc20Transfer (ledger : Erc20) (token sender recipient : Address) (amount : Nat) :
    Call Erc20 := do
  revertIf (token = Address.zero) (.noCode token)
  revertIf (recipient = Address.zero) (.erc20InvalidReceiver recipient)
  revertIf (ledger token sender < amount) (.erc20InsufficientBalance token sender)
  pure (Function.update ledger token (moveBalance (ledger token) sender recipient amount))

def erc1155Transfer (ledger : Erc1155) (collection : Address) (id : Nat)
    (sender recipient : Address) (amount : Nat) : Call Erc1155 := do
  revertIf (collection = Address.zero) (.noCode collection)
  revertIf (recipient = Address.zero) (.erc1155InvalidReceiver recipient)
  revertIf (ledger collection id sender < amount)
    (.erc1155InsufficientBalance collection sender)
  pure (Function.update ledger collection (Function.update (ledger collection) id
    (moveBalance (ledger collection id) sender recipient amount)))

def erc1155Burn (ledger : Erc1155) (collection : Address) (id : Nat) (holder : Address)
    (amount : Nat) : Call Erc1155 := do
  revertIf (collection = Address.zero) (.noCode collection)
  revertIf (ledger collection id holder < amount)
    (.erc1155InsufficientBalance collection holder)
  pure (Function.update ledger collection (Function.update (ledger collection) id
    (Function.update (ledger collection id) holder (ledger collection id holder - amount))))

/-- `SafeCast.toUintN`. -/
def safeCast (width value : Nat) : Call Nat := do
  revertIf (uintBound width ≤ value) (.safeCastOverflow width value)
  pure value

/-! ## What a token transfer does -/

theorem erc20Transfer_ok_iff (ledger result : Erc20) (token sender recipient : Address)
    (amount : Nat) :
    erc20Transfer ledger token sender recipient amount = .ok result ↔
      token ≠ Address.zero ∧ recipient ≠ Address.zero ∧ amount ≤ ledger token sender ∧
        result = Function.update ledger token
          (moveBalance (ledger token) sender recipient amount) := by
  simp only [erc20Transfer, bind_ok_iff, revertIf_ok_iff, pure_ok_iff, exists_const, not_lt,
    eq_comm (a := result), ne_eq]

theorem safeCast_ok_iff (width value result : Nat) :
    safeCast width value = .ok result ↔ value < uintBound width ∧ result = value := by
  simp only [safeCast, bind_ok_iff, revertIf_ok_iff, pure_ok_iff, exists_const, not_le,
    eq_comm (a := result)]

theorem erc20Transfer_other_token (ledger result : Erc20) (token sender recipient : Address)
    (amount : Nat) (run : erc20Transfer ledger token sender recipient amount = .ok result)
    (other : Address) (differ : other ≠ token) : result other = ledger other := by
  obtain ⟨-, -, -, resultEq⟩ := (erc20Transfer_ok_iff ..).mp run
  rw [resultEq, Function.update_of_ne differ]

theorem erc20Transfer_same_token (ledger result : Erc20) (token sender recipient : Address)
    (amount : Nat) (run : erc20Transfer ledger token sender recipient amount = .ok result) :
    result token = moveBalance (ledger token) sender recipient amount := by
  obtain ⟨-, -, -, resultEq⟩ := (erc20Transfer_ok_iff ..).mp run
  rw [resultEq, Function.update_self]

/-- Only the sender of a transfer can lose, whatever the token. -/
theorem erc20Transfer_le (ledger result : Erc20) (token sender recipient : Address)
    (amount : Nat) (run : erc20Transfer ledger token sender recipient amount = .ok result)
    (other account : Address) (notSender : account ≠ sender) :
    ledger other account ≤ result other account := by
  by_cases same : other = token
  · subst same
    rw [erc20Transfer_same_token ledger result other sender recipient amount run]
    exact le_moveBalance (ledger other) sender recipient account amount notSender
  · rw [erc20Transfer_other_token ledger result token sender recipient amount run other same]

/-- An account that receives a transfer of another account. -/
theorem erc20Transfer_credit (ledger result : Erc20) (token sender account : Address)
    (amount : Nat) (run : erc20Transfer ledger token sender account amount = .ok result)
    (notSender : account ≠ sender) (other : Address) :
    result other account = ledger other account + if other = token then amount else 0 := by
  by_cases same : other = token
  · subst same
    rw [erc20Transfer_same_token ledger result other sender account amount run, if_pos rfl]
    exact moveBalance_payee (ledger other) sender account amount notSender
  · rw [erc20Transfer_other_token ledger result token sender account amount run other same,
      if_neg same, Nat.add_zero]

/-- An account that pays another account. -/
theorem erc20Transfer_debit (ledger result : Erc20) (token account recipient : Address)
    (amount : Nat) (run : erc20Transfer ledger token account recipient amount = .ok result)
    (notRecipient : recipient ≠ account) (other : Address) :
    result other account + (if other = token then amount else 0) = ledger other account := by
  obtain ⟨-, -, enough, -⟩ := (erc20Transfer_ok_iff ..).mp run
  by_cases same : other = token
  · subst same
    rw [erc20Transfer_same_token ledger result other account recipient amount run, if_pos rfl,
      moveBalance_payer (ledger other) account recipient amount (Ne.symm notRecipient)]
    omega
  · rw [erc20Transfer_other_token ledger result token account recipient amount run other same,
      if_neg same, Nat.add_zero]

/-- What a transfer can take from an account at most. -/
theorem erc20Transfer_outflow (ledger result : Erc20) (token account recipient : Address)
    (amount : Nat) (run : erc20Transfer ledger token account recipient amount = .ok result)
    (other : Address) :
    ledger other account ≤ result other account + if other = token then amount else 0 := by
  obtain ⟨-, -, enough, -⟩ := (erc20Transfer_ok_iff ..).mp run
  by_cases same : other = token
  · subst same
    rw [erc20Transfer_same_token ledger result other account recipient amount run, if_pos rfl]
    exact le_moveBalance_add (ledger other) account recipient account amount enough
  · rw [erc20Transfer_other_token ledger result token account recipient amount run other same]
    exact Nat.le_add_right _ _

theorem erc1155Transfer_ok_iff (ledger result : Erc1155) (collection : Address) (id : Nat)
    (sender recipient : Address) (amount : Nat) :
    erc1155Transfer ledger collection id sender recipient amount = .ok result ↔
      collection ≠ Address.zero ∧ recipient ≠ Address.zero ∧
        amount ≤ ledger collection id sender ∧
        result = Function.update ledger collection (Function.update (ledger collection) id
          (moveBalance (ledger collection id) sender recipient amount)) := by
  simp only [erc1155Transfer, bind_ok_iff, revertIf_ok_iff, pure_ok_iff, exists_const, not_lt,
    eq_comm (a := result), ne_eq]

theorem erc1155Burn_ok_iff (ledger result : Erc1155) (collection : Address) (id : Nat)
    (holder : Address) (amount : Nat) :
    erc1155Burn ledger collection id holder amount = .ok result ↔
      collection ≠ Address.zero ∧ amount ≤ ledger collection id holder ∧
        result = Function.update ledger collection (Function.update (ledger collection) id
          (Function.update (ledger collection id) holder
            (ledger collection id holder - amount))) := by
  simp only [erc1155Burn, bind_ok_iff, revertIf_ok_iff, pure_ok_iff, exists_const, not_lt,
    eq_comm (a := result), ne_eq]

/-- The units of a collection that were not written. -/
theorem erc1155_update_of_ne (ledger : Erc1155) (collection : Address) (id : Nat)
    (balances : Address → Nat) (otherCollection : Address) (otherId : Nat)
    (differ : ¬ (otherCollection = collection ∧ otherId = id)) :
    Function.update ledger collection (Function.update (ledger collection) id balances)
      otherCollection otherId = ledger otherCollection otherId := by
  by_cases same : otherCollection = collection
  · subst same
    have otherUnit : otherId ≠ id := fun sameId => differ ⟨rfl, sameId⟩
    rw [Function.update_self, Function.update_of_ne otherUnit]
  · rw [Function.update_of_ne same]

/-- Only the sender of boosters can lose. -/
theorem erc1155Transfer_le (ledger result : Erc1155) (collection : Address) (id : Nat)
    (sender recipient : Address) (amount : Nat)
    (run : erc1155Transfer ledger collection id sender recipient amount = .ok result)
    (otherCollection : Address) (otherId : Nat) (account : Address)
    (notSender : account ≠ sender) :
    ledger otherCollection otherId account ≤ result otherCollection otherId account := by
  obtain ⟨-, -, -, resultEq⟩ := (erc1155Transfer_ok_iff ..).mp run
  rw [resultEq]
  by_cases same : otherCollection = collection ∧ otherId = id
  · obtain ⟨rfl, rfl⟩ := same
    rw [Function.update_self, Function.update_self]
    exact le_moveBalance _ sender recipient account amount notSender
  · rw [erc1155_update_of_ne ledger collection id _ otherCollection otherId same]

/-- Only the holder of burnt boosters loses. -/
theorem erc1155Burn_le (ledger result : Erc1155) (collection : Address) (id : Nat)
    (holder : Address) (amount : Nat)
    (run : erc1155Burn ledger collection id holder amount = .ok result)
    (otherCollection : Address) (otherId : Nat) (account : Address)
    (notHolder : account ≠ holder) :
    ledger otherCollection otherId account ≤ result otherCollection otherId account := by
  obtain ⟨-, -, resultEq⟩ := (erc1155Burn_ok_iff ..).mp run
  rw [resultEq]
  by_cases same : otherCollection = collection ∧ otherId = id
  · obtain ⟨rfl, rfl⟩ := same
    rw [Function.update_self, Function.update_self, Function.update_of_ne notHolder]
  · rw [erc1155_update_of_ne ledger collection id _ otherCollection otherId same]

end Usd8Core.Chain
