import Usd8Core.Chain.ChainState

/-!
# SingleAssetCoverPool

Every function of the pool that reads or writes accounting, in the order of
`SingleAssetCoverPool.sol`.  A call sees the Registry's storage, whether the
Registry reports an active incident, and the token ledgers; it returns the new
pool storage, the new ledgers and the events in emission order.  The reentrancy
guard makes each external call atomic.
-/

set_option autoImplicit false

namespace Usd8Core.Chain

open Usd8Core.Lib.ByteWords
open Usd8Core.Lib.CheckedCall
open Usd8Core.Lib.FiniteLedger

/-- What a pool call reads beside the pool's own storage. -/
structure PoolEnv where
  self : Address
  sender : Address
  now : Nat
  registry : Registry
  payoutIncidentActive : Bool

/-- The state a pool call works on. -/
structure PoolTx where
  pool : SingleAssetCoverPool
  erc20 : Erc20
  events : List Event

/-! ## Access checks of `SharedBase` -/

def requireTimelock (registry : Registry) (caller : Address) : Call Unit :=
  revertIf (caller ≠ registry.timelock) (.unauthorizedTimelock caller)

def requireAdminOrTimelock (registry : Registry) (caller : Address) : Call Unit :=
  revertIf (caller ≠ registry.timelock ∧ registry.isAdmin caller = false)
    (.unauthorizedAdmin caller)

def requireNotPaused (registry : Registry) (target : Address) : Call Unit :=
  revertIf (registry.paused target = true) .paused

namespace SingleAssetCoverPool

def totalAssets (pool : SingleAssetCoverPool) : Nat := pool.accountedAssets

/-- `10 ** _decimalsOffset()`. -/
def virtualShares : Nat := 1000

/-! ## Reward math -/

def earningShares (pool : SingleAssetCoverPool) (self : Address) : Call Nat :=
  checkedSub pool.totalSupply (pool.balances self)

/-- `block.timestamp < periodFinish ? block.timestamp : periodFinish`. -/
def rewardTime (pool : SingleAssetCoverPool) (now : Nat) : Nat :=
  if now < pool.periodFinish then now else pool.periodFinish

/-- `(t - lastUpdateTime) * rewardRate * REWARD_SCALE + rewardResidual`. -/
def rewardNumerator (pool : SingleAssetCoverPool) (t : Nat) : Call Nat := do
  let elapsed ← checkedSub t pool.lastUpdateTime
  let streamed ← checkedMul 256 elapsed pool.rewardRate
  let scaled ← checkedMul 256 streamed rewardScale
  checkedAdd 256 scaled pool.rewardResidual

def rewardPerShare (pool : SingleAssetCoverPool) (self : Address) (now : Nat) : Call Nat := do
  let earning ← pool.earningShares self
  if earning = 0 then pure pool.rewardPerShareStored
  else
    let t := pool.rewardTime now
    if t ≤ pool.lastUpdateTime then pure pool.rewardPerShareStored
    else do
      let numerator ← pool.rewardNumerator t
      checkedAdd 256 pool.rewardPerShareStored (numerator / earning)

def earned (pool : SingleAssetCoverPool) (self : Address) (now : Nat) (user : Address) :
    Call Nat := do
  let earningBalance := if user = self then 0 else pool.balances user
  let perShare ← pool.rewardPerShare self now
  let accrued ← checkedSub perShare (pool.rewardState user).userRewardPerSharePaid
  let product ← checkedMul 256 earningBalance accrued
  checkedAdd 256 (product / rewardScale) (pool.rewardState user).rewards

def checkpointGlobalRewards (pool : SingleAssetCoverPool) (self : Address) (now : Nat) :
    Call SingleAssetCoverPool := do
  let earning ← pool.earningShares self
  if earning = 0 then
    if pool.rewardRate ≠ 0 ∧ pool.periodFinish > pool.lastUpdateTime then do
      let finish ← checkedAdd 64 (truncate 64 now) (pool.periodFinish - pool.lastUpdateTime)
      pure { pool with periodFinish := finish, lastUpdateTime := truncate 64 now }
    else pure { pool with lastUpdateTime := truncate 64 now }
  else
    let t := pool.rewardTime now
    if t > pool.lastUpdateTime then do
      let numerator ← pool.rewardNumerator t
      let stored ← checkedAdd 256 pool.rewardPerShareStored (numerator / earning)
      pure { pool with
        rewardPerShareStored := stored
        rewardResidual := numerator % earning
        lastUpdateTime := truncate 64 t }
    else pure { pool with lastUpdateTime := truncate 64 t }

def checkpointUserRewards (pool : SingleAssetCoverPool) (self : Address) (now : Nat)
    (user : Address) : Call SingleAssetCoverPool := do
  let rewards ← pool.earned self now user
  pure { pool with
    rewardState := Function.update pool.rewardState user ⟨pool.rewardPerShareStored, rewards⟩ }

/-! ## Shares -/

/-- The first half of `ERC20Upgradeable._update`: the zero address mints. -/
def debitShares (pool : SingleAssetCoverPool) (self sender : Address) (value : Nat) :
    Call SingleAssetCoverPool :=
  if sender = Address.zero then do
    let supply ← checkedAdd 256 pool.totalSupply value
    pure { pool with totalSupply := supply }
  else do
    revertIf (pool.balances sender < value) (.erc20InsufficientBalance self sender)
    pure { pool with
      balances := Function.update pool.balances sender (pool.balances sender - value) }

/-- The second half: the zero address burns. -/
def creditShares (pool : SingleAssetCoverPool) (recipient : Address) (value : Nat) :
    SingleAssetCoverPool :=
  if recipient = Address.zero then { pool with totalSupply := pool.totalSupply - value }
  else
    { pool with
      balances := Function.update pool.balances recipient (pool.balances recipient + value) }

/-- `ERC20Upgradeable._update`. -/
def erc20Update (pool : SingleAssetCoverPool) (self sender recipient : Address)
    (value : Nat) : Call SingleAssetCoverPool := do
  let debited ← pool.debitShares self sender value
  pure (debited.creditShares recipient value)

/-- The pool's `_update`: checkpoint the accumulator and both parties first. -/
def update (pool : SingleAssetCoverPool) (self : Address) (now : Nat)
    (sender recipient : Address) (value : Nat) : Call SingleAssetCoverPool := do
  let pool ← pool.checkpointGlobalRewards self now
  revertIf (recipient = self) .invalidRecipient
  let pool ← (if sender ≠ Address.zero ∧ sender ≠ self then
    pool.checkpointUserRewards self now sender else pure pool)
  let pool ← (if recipient ≠ Address.zero then
    pool.checkpointUserRewards self now recipient else pure pool)
  pool.erc20Update self sender recipient value

def mintShares (pool : SingleAssetCoverPool) (self : Address) (now : Nat)
    (account : Address) (value : Nat) : Call SingleAssetCoverPool := do
  revertIf (account = Address.zero) (.erc20InvalidReceiver account)
  pool.update self now Address.zero account value

def burnShares (pool : SingleAssetCoverPool) (self : Address) (now : Nat)
    (account : Address) (value : Nat) : Call SingleAssetCoverPool := do
  revertIf (account = Address.zero) (.erc20InvalidSender account)
  pool.update self now account Address.zero value

/-! ## Conversions and limits -/

def convertToSharesDown (pool : SingleAssetCoverPool) (assets : Nat) : Call Nat := do
  let supply ← checkedAdd 256 pool.totalSupply virtualShares
  let total ← checkedAdd 256 pool.totalAssets 1
  mulDiv assets supply total

def convertToAssetsDown (pool : SingleAssetCoverPool) (shares : Nat) : Call Nat := do
  let total ← checkedAdd 256 pool.totalAssets 1
  let supply ← checkedAdd 256 pool.totalSupply virtualShares
  mulDiv shares total supply

def previewDeposit (pool : SingleAssetCoverPool) (assets : Nat) : Call Nat :=
  pool.convertToSharesDown assets

def previewMint (pool : SingleAssetCoverPool) (shares : Nat) : Call Nat := do
  let total ← checkedAdd 256 pool.totalAssets 1
  let supply ← checkedAdd 256 pool.totalSupply virtualShares
  mulDivUp shares total supply

def previewRedeem (pool : SingleAssetCoverPool) (shares : Nat) : Call Nat :=
  pool.convertToAssetsDown shares

def shareHeadroom (pool : SingleAssetCoverPool) : Nat :=
  (uintBound 256 - 1 - virtualShares) - pool.totalSupply

def maxDeposit (env : PoolEnv) (pool : SingleAssetCoverPool) : Call Nat := do
  if env.registry.paused env.self = true ∨ env.payoutIncidentActive = true then pure 0
  else
    let headroom := pool.shareHeadroom
    if headroom = 0 then pure 0
    else do
      let size := pool.totalAssets
      let byCap :=
        if pool.depositCap = 0 then uintBound 256 - 1 else pool.depositCap - size
      let sizePlusOne ← checkedAdd 256 size 1
      if headroom > (uintBound 256 - 1) / sizePlusOne then pure byCap
      else do
        let byHeadroom ← pool.convertToAssetsDown headroom
        pure (min byCap byHeadroom)

def maxMint (env : PoolEnv) (pool : SingleAssetCoverPool) : Call Nat := do
  if env.registry.paused env.self = true ∨ env.payoutIncidentActive = true then pure 0
  else
    let headroom := pool.shareHeadroom
    if pool.depositCap = 0 then pure headroom
    else
      let size := pool.totalAssets
      if pool.depositCap > size then do
        let shares ← pool.convertToSharesDown (pool.depositCap - size)
        pure (min headroom shares)
      else pure 0

/-! ## Exit epochs -/

/-- One iteration of the settlement loop: fix the epoch's assets, burn its shares. -/
def settleEpoch (pool : SingleAssetCoverPool) (self : Address) (now exitEpoch : Nat) :
    Call (SingleAssetCoverPool × Event) := do
  let epoch := pool.exitEpochs exitEpoch
  let shares := epoch.totalShares
  -- the final shares drain all active assets, so virtual rounding leaves no dust
  let assets ← (if shares = pool.totalSupply then pure pool.accountedAssets
    else pool.previewRedeem shares)
  let accounted ← checkedSub pool.accountedAssets assets
  let reserve ← checkedAdd 256 pool.withdrawalReserve assets
  let pool := { pool with
    exitEpochs := Function.update pool.exitEpochs exitEpoch
      { epoch with totalAssets := assets, remainingShares := shares, remainingAssets := assets }
    accountedAssets := accounted
    withdrawalReserve := reserve }
  let pool ← pool.burnShares self now self shares
  pure (pool, .exitEpochSettled exitEpoch shares assets)

/-- The loop over the queue from the first unsettled entry on. -/
def settleLoop (self : Address) (now maxEpochs : Nat) :
    List Nat → Nat → SingleAssetCoverPool → List Event →
      Call (SingleAssetCoverPool × List Event × Nat)
  | [], settled, pool, events => .ok (pool, events, settled)
  | exitEpoch :: rest, settled, pool, events =>
      if settled < maxEpochs then
        if now < exitEpoch then .ok (pool, events, settled)
        else do
          let (pool, event) ← pool.settleEpoch self now exitEpoch
          settleLoop self now maxEpochs rest (settled + 1) pool (events ++ [event])
      else .ok (pool, events, settled)

def settleMatured (pool : SingleAssetCoverPool) (self : Address) (now maxEpochs : Nat) :
    Call (SingleAssetCoverPool × List Event) := do
  let first := pool.nextExitEpochIndex
  let (pool, events, settled) ←
    settleLoop self now maxEpochs (pool.exitEpochQueue.drop first) 0 pool []
  pure ({ pool with nextExitEpochIndex := first + settled }, events)

def calculateExitEpoch (env : PoolEnv) (pool : SingleAssetCoverPool) (requestedAt : Nat) :
    Call Nat := do
  let config := env.registry.exitTimingConfig
  let earliest ← checkedAdd 256 requestedAt config.unstakeCooldown
  let batches ← ceilDiv earliest config.exitBatchInterval
  let boundary ← checkedMul 256 batches config.exitBatchInterval
  let exitEpoch ← safeCast 64 boundary
  if pool.nextExitEpochIndex < pool.exitEpochQueue.length then
    let outstandingTail := pool.exitEpochQueue.getLastD 0
    pure (if exitEpoch < outstandingTail then outstandingTail else exitEpoch)
  else pure exitEpoch

/-- `maxPayoutPerIncident`. -/
def maxPayoutPerIncident (pool : SingleAssetCoverPool) (registry : Registry) : Call Nat := do
  let product ← checkedMul 256 pool.totalAssets registry.maxCoverPoolPayoutBps
  pure (product / bpsDenominator)

end SingleAssetCoverPool

/-! ## External calls -/

inductive PoolCall where
  | deposit (assets : Nat) (receiver : Address)
  | mint (shares : Nat) (receiver : Address)
  | transfer (recipient : Address) (value : Nat)
  | requestRedeem (shares : Nat)
  | settleMaturedExitEpochs (maxEpochs : Nat)
  | completeRedeem (receiver : Address)
  | claimReward
  | receiveProfitDistribution (amount : Nat)
  | payClaim (recipient : Address) (amount : Nat)
  | setRewardsDuration (newDuration : Nat)
  | setDepositCap (newCap : Nat)
  | sweepToken (token recipient : Address)

/-- The arguments fit the types the ABI decoder accepts. -/
def PoolCall.Encodable : PoolCall → Prop
  | .deposit assets _ => assets < uintBound 256
  | .mint shares _ => shares < uintBound 256
  | .transfer _ value => value < uintBound 256
  | .requestRedeem shares => shares < uintBound 256
  | .settleMaturedExitEpochs maxEpochs => maxEpochs < uintBound 256
  | .receiveProfitDistribution amount => amount < uintBound 256
  | .payClaim _ amount => amount < uintBound 256
  | .setRewardsDuration newDuration => newDuration < uintBound 64
  | .setDepositCap newCap => newCap < uintBound 256
  | .completeRedeem _ => True
  | .claimReward => True
  | .sweepToken _ _ => True

instance (call : PoolCall) : Decidable call.Encodable := by
  cases call <;> unfold PoolCall.Encodable <;> infer_instance

namespace PoolTx

open SingleAssetCoverPool

def depositShares (env : PoolEnv) (tx : PoolTx) (receiver : Address) (assets shares : Nat) :
    Call PoolTx := do
  let headroom := tx.pool.shareHeadroom
  revertIf (shares > headroom) (.shareSupplyHeadroomExceeded shares headroom)
  let before := tx.erc20 tx.pool.asset env.self
  let erc20 ← erc20Transfer tx.erc20 tx.pool.asset env.sender env.self assets
  let pool ← tx.pool.mintShares env.self env.now receiver shares
  let received ← checkedSub (erc20 pool.asset env.self) before
  revertIf (received < assets) .feeOnTransferUnsupported
  let accounted ← checkedAdd 256 pool.accountedAssets assets
  pure { tx with pool := { pool with accountedAssets := accounted }, erc20 := erc20 }

def deposit (env : PoolEnv) (tx : PoolTx) (assets : Nat) (receiver : Address) :
    Call PoolTx := do
  requireNotPaused env.registry env.self
  let limit ← maxDeposit env tx.pool
  revertIf (assets > limit) (.erc4626ExceededMaxDeposit receiver assets limit)
  let shares ← tx.pool.previewDeposit assets
  depositShares env tx receiver assets shares

def mint (env : PoolEnv) (tx : PoolTx) (shares : Nat) (receiver : Address) :
    Call PoolTx := do
  requireNotPaused env.registry env.self
  let limit ← maxMint env tx.pool
  revertIf (shares > limit) (.erc4626ExceededMaxMint receiver shares limit)
  let assets ← tx.pool.previewMint shares
  depositShares env tx receiver assets shares

def transfer (env : PoolEnv) (tx : PoolTx) (recipient : Address) (value : Nat) :
    Call PoolTx := do
  revertIf (recipient = Address.zero) (.erc20InvalidReceiver recipient)
  let pool ← tx.pool.update env.self env.now env.sender recipient value
  pure { tx with pool := pool }

/-- Settle every matured epoch of the queue. -/
def settleAll (env : PoolEnv) (tx : PoolTx) : Call PoolTx := do
  let outstanding ← checkedSub tx.pool.exitEpochQueue.length tx.pool.nextExitEpochIndex
  let (pool, events) ← tx.pool.settleMatured env.self env.now outstanding
  pure { tx with pool := pool, events := tx.events ++ events }

/-- Assign the shares to an epoch and move them into exit escrow. -/
def enqueueRedeem (env : PoolEnv) (pool : SingleAssetCoverPool) (shares exitEpoch : Nat) :
    Call SingleAssetCoverPool := do
  let epoch := pool.exitEpochs exitEpoch
  let total ← checkedAdd 256 epoch.totalShares shares
  let pool := { pool with
    exitRequests := Function.update pool.exitRequests env.sender ⟨shares, exitEpoch⟩
    exitEpochQueue :=
      if epoch.totalShares = 0 then pool.exitEpochQueue ++ [exitEpoch] else pool.exitEpochQueue
    exitEpochs := Function.update pool.exitEpochs exitEpoch
      { epoch with totalShares := total } }
  let pool ← pool.checkpointGlobalRewards env.self env.now
  let pool ← pool.checkpointUserRewards env.self env.now env.sender
  pool.erc20Update env.self env.sender env.self shares

def requestRedeem (env : PoolEnv) (tx : PoolTx) (shares : Nat) : Call PoolTx := do
  requireNotPaused env.registry env.self
  let tx ← (if env.payoutIncidentActive = false then settleAll env tx else pure tx)
  revertIf (shares = 0) .zeroAmount
  let balance := tx.pool.balances env.sender
  revertIf (balance < shares) (.insufficientShares shares balance)
  revertIf ((tx.pool.exitRequests env.sender).shares ≠ 0) .unstakeRequestExists
  let exitEpoch ← calculateExitEpoch env tx.pool env.now
  let pool ← enqueueRedeem env tx.pool shares exitEpoch
  pure { tx with pool := pool, events := tx.events ++ [.redeemRequested env.sender shares] }

def settleMaturedExitEpochs (env : PoolEnv) (tx : PoolTx) (maxEpochs : Nat) :
    Call PoolTx := do
  revertIf (env.payoutIncidentActive = true) .poolFrozen
  let (pool, events) ← tx.pool.settleMatured env.self env.now maxEpochs
  pure { tx with pool := pool, events := tx.events ++ events }

/-- What the epoch owes a request: everything left to its last claimant. -/
def redeemAssets (epoch : ExitEpoch) (shares : Nat) : Call Nat :=
  if shares = epoch.remainingShares then pure epoch.remainingAssets
  else mulDiv epoch.totalAssets shares epoch.totalShares

/-- Pay a request out of its settled epoch. -/
def payRequest (env : PoolEnv) (tx : PoolTx) (receiver : Address) (request : ExitRequest) :
    Call PoolTx := do
  let epoch := tx.pool.exitEpochs request.exitEpoch
  let assets ← redeemAssets epoch request.shares
  let remainingShares ← checkedSub epoch.remainingShares request.shares
  let remainingAssets ← checkedSub epoch.remainingAssets assets
  let reserve ← checkedSub tx.pool.withdrawalReserve assets
  let pool := { tx.pool with
    exitRequests := Function.update tx.pool.exitRequests env.sender ⟨0, 0⟩
    exitEpochs := Function.update tx.pool.exitEpochs request.exitEpoch
      { epoch with remainingShares := remainingShares, remainingAssets := remainingAssets }
    withdrawalReserve := reserve }
  let erc20 ← erc20Transfer tx.erc20 pool.asset env.self receiver assets
  pure { pool := pool, erc20 := erc20,
         events := tx.events ++ [.exitClaimed env.sender receiver request.shares assets] }

/-- A request whose epoch is not settled yet: settle everything matured first. -/
def settleForRedeem (env : PoolEnv) (tx : PoolTx) (request : ExitRequest) : Call PoolTx := do
  revertIf (env.now < request.exitEpoch) (.cooldownNotElapsed request.exitEpoch)
  revertIf (env.payoutIncidentActive = true) .poolFrozen
  settleAll env tx

def completeRedeem (env : PoolEnv) (tx : PoolTx) (receiver : Address) : Call PoolTx := do
  requireNotPaused env.registry env.self
  revertIf (receiver = Address.zero ∨ receiver = env.self) .invalidRecipient
  let request := tx.pool.exitRequests env.sender
  revertIf (request.shares = 0) .noUnstakeRequest
  let tx ← (if (tx.pool.exitEpochs request.exitEpoch).remainingShares = 0 then
    settleForRedeem env tx request else pure tx)
  payRequest env tx receiver request

def claimReward (env : PoolEnv) (tx : PoolTx) : Call PoolTx := do
  requireNotPaused env.registry env.self
  let pool ← tx.pool.checkpointGlobalRewards env.self env.now
  let pool ← pool.checkpointUserRewards env.self env.now env.sender
  let user := pool.rewardState env.sender
  let reward := user.rewards
  if reward = 0 then pure { tx with pool := pool }
  else do
    let reserve ← checkedSub pool.rewardReserve reward
    let erc20 ← erc20Transfer tx.erc20 pool.usd8 env.self env.sender reward
    pure { pool := { pool with
             rewardState := Function.update pool.rewardState env.sender { user with rewards := 0 }
             rewardReserve := reserve }
           erc20 := erc20
           events := tx.events ++ [.rewardClaimed env.sender reward] }

/-- The blended duration and rate of a distribution, from the checkpointed stream. -/
def blendStream (pool : SingleAssetCoverPool) (now amount : Nat) : Call (Nat × Nat) := do
  let remaining := if now < pool.periodFinish then pool.periodFinish - now else 0
  let leftover ← checkedMul 256 remaining pool.rewardRate
  let total ← checkedAdd 256 leftover amount
  let oldWeight ← checkedMul 256 leftover remaining
  let newWeight ← checkedMul 256 amount pool.rewardsDuration
  let weight ← checkedAdd 256 oldWeight newWeight
  let blended ← checkedDiv weight total
  let newDuration := if blended = 0 then pool.rewardsDuration else blended
  let newRate ← checkedDiv total newDuration
  revertIf (newRate = 0) (.rewardRateZero total newDuration)
  revertIf (newRate > uintBound 128 - 1) .rewardRateTooHigh
  pure (newDuration, newRate)

def receiveProfitDistribution (env : PoolEnv) (tx : PoolTx) (amount : Nat) :
    Call PoolTx := do
  requireNotPaused env.registry env.self
  revertIf (amount = 0) .zeroAmount
  let earning ← tx.pool.earningShares env.self
  revertIf (earning = 0) .noEligibleStakers
  let erc20 ← erc20Transfer tx.erc20 tx.pool.usd8 env.sender env.self amount
  let reserve ← checkedAdd 256 tx.pool.rewardReserve amount
  let pool ← { tx.pool with rewardReserve := reserve }.checkpointGlobalRewards env.self env.now
  let (newDuration, newRate) ← blendStream pool env.now amount
  let finish ← checkedAdd 256 env.now newDuration
  let pool := { pool with
    rewardRate := newRate
    lastUpdateTime := truncate 64 env.now
    periodFinish := truncate 64 finish }
  pure { pool := pool, erc20 := erc20,
         events := tx.events ++ [.rewardNotified amount newRate pool.periodFinish] }

def payClaim (env : PoolEnv) (tx : PoolTx) (recipient : Address) (amount : Nat) :
    Call PoolTx := do
  requireNotPaused env.registry env.self
  revertIf (env.sender ≠ env.registry.defiInsurance) (.notDefiInsurance env.sender)
  revertIf (recipient = env.self) .invalidRecipient
  if amount = 0 then pure tx
  else do
    revertIf (amount > tx.pool.accountedAssets)
      (.payoutExceedsPoolAssets amount tx.pool.accountedAssets)
    let accounted ← checkedSub tx.pool.accountedAssets amount
    let erc20 ← erc20Transfer tx.erc20 tx.pool.asset env.self recipient amount
    pure { pool := { tx.pool with accountedAssets := accounted }, erc20 := erc20,
           events := tx.events ++ [.claimPaid recipient amount] }

def setRewardsDuration (env : PoolEnv) (tx : PoolTx) (newDuration : Nat) : Call PoolTx := do
  requireTimelock env.registry env.sender
  revertIf (newDuration = 0 ∨ newDuration > maxRewardsDuration) .invalidRewardsDuration
  pure { tx with pool := { tx.pool with rewardsDuration := newDuration } }

def setDepositCap (env : PoolEnv) (tx : PoolTx) (newCap : Nat) : Call PoolTx := do
  requireAdminOrTimelock env.registry env.sender
  pure { tx with pool := { tx.pool with depositCap := newCap } }

/-- The pool's `_sweepable`: the balance above every accounted amount. -/
def sweepable (env : PoolEnv) (tx : PoolTx) (token : Address) : Call Nat :=
  if token = env.self then pure 0
  else do
    let principal ← (if token = tx.pool.asset then
      checkedAdd 256 tx.pool.accountedAssets tx.pool.withdrawalReserve else pure 0)
    let accounted ← (if token = tx.pool.usd8 then
      checkedAdd 256 principal tx.pool.rewardReserve else pure principal)
    pure (tx.erc20 token env.self - accounted)

def sweepToken (env : PoolEnv) (tx : PoolTx) (token recipient : Address) : Call PoolTx := do
  requireAdminOrTimelock env.registry env.sender
  revertIf (recipient = Address.zero) .zeroAddress
  revertIf (recipient = env.self) (.invalidSweepRecipient recipient)
  let amount ← sweepable env tx token
  revertIf (amount = 0) (.nothingToSweep token)
  let erc20 ← erc20Transfer tx.erc20 token env.self recipient amount
  pure { tx with erc20 := erc20, events := tx.events ++ [.tokenSwept token recipient amount] }

def exec (env : PoolEnv) (tx : PoolTx) (call : PoolCall) : Call PoolTx := do
  revertIf (¬ call.Encodable) .abiDecode
  match call with
  | .deposit assets receiver => deposit env tx assets receiver
  | .mint shares receiver => mint env tx shares receiver
  | .transfer recipient value => transfer env tx recipient value
  | .requestRedeem shares => requestRedeem env tx shares
  | .settleMaturedExitEpochs maxEpochs => settleMaturedExitEpochs env tx maxEpochs
  | .completeRedeem receiver => completeRedeem env tx receiver
  | .claimReward => claimReward env tx
  | .receiveProfitDistribution amount => receiveProfitDistribution env tx amount
  | .payClaim recipient amount => payClaim env tx recipient amount
  | .setRewardsDuration newDuration => setRewardsDuration env tx newDuration
  | .setDepositCap newCap => setDepositCap env tx newCap
  | .sweepToken token recipient => sweepToken env tx token recipient

end PoolTx

end Usd8Core.Chain
