import Usd8Core.Chain.CoverPool
import Usd8Core.Lib.ProRata

/-!
# The Treasury

USD8 is issued at par for USDC and redeemed at par or pro rata.  The reserve is the
Treasury's idle USDC and what its strategies report.  USDC, the strategies and the
receivers of revenue are contracts of others, reached through their calls only.
-/

set_option autoImplicit false

namespace Usd8Core.Treasury

open Finset
open Usd8Core.Lib.ByteWords
open Usd8Core.Lib.CheckedCall
open Usd8Core.Lib.FiniteLedger
open Usd8Core.Chain

/-! ## Reverts -/

inductive TreasuryError where
  | panic (reason : Panic)
  /-- A revert of the Registry. -/
  | registry (error : ContractError)
  /-- A revert of USDC, a strategy or a receiver. -/
  | external (account : Address)
  | unauthorizedTreasury (caller : Address)
  | erc20InsufficientBalance (sender : Address)
  | erc20InvalidReceiver (receiver : Address)
  | erc20InvalidSender (sender : Address)
  | zeroAmount
  | zeroAddress
  | noUsd8Supply
  | reserveSupplyStatusWorsened (reserveBefore supplyBefore reserveAfter supplyAfter : Nat)
  | insufficientUsdcOut (usdcOut minUsdcOut : Nat)
  | insufficientLiquidity (needed available : Nat)
  | strategyNotApproved (strategy : Address)
  | strategyAlreadyApproved (strategy : Address)
  | strategyDeployReserveLoss (before after : Nat)
  | noEligibleProfitReceivers
  | revenueDeliveryMismatch (expected actual : Nat)
  | profitReceiverNotFound (receiver : Address)
  | invalidProfitReceiver (receiver : Address)
  | safeCastOverflowedUintDowncast (bits value : Nat)

instance : HasPanic TreasuryError := ⟨TreasuryError.panic⟩

abbrev TreasuryCall := Except TreasuryError

section Lifting

variable {α : Type}

def ofRegistry (call : Call α) : TreasuryCall α :=
  match call with
  | .ok value => .ok value
  | .error error => .error (.registry error)

@[simp] theorem ofRegistry_ok_iff (call : Call α) (value : α) :
    ofRegistry call = .ok value ↔ call = .ok value := by
  cases call <;> simp [ofRegistry]

end Lifting

/-! ## The USD8 token -/

/-- An ERC-20 ledger whose balances add up to its supply, a machine word. -/
structure Usd8 where
  balances : Address → Nat
  totalSupply : Nat
  sound : ∑ account, balances account = totalSupply
  fits : totalSupply < uintBound 256

namespace Usd8

theorem balance_le (usd8 : Usd8) (account : Address) :
    usd8.balances account ≤ usd8.totalSupply := by
  rw [← usd8.sound]
  exact Finset.single_le_sum (fun _ _ => Nat.zero_le _) (mem_univ account)

theorem sum_update (usd8 : Usd8) (account : Address) (balance : Nat) :
    ∑ other, Function.update usd8.balances account balance other + usd8.balances account =
      usd8.totalSupply + balance := by
  rw [← usd8.sound]
  have changed := sum_differ_at usd8.balances (Function.update usd8.balances account balance)
    account (mem_univ account) (fun other _ differ => Function.update_of_ne differ _ _)
  rwa [Function.update_self] at changed

/-- `_mint`. -/
def mint (usd8 : Usd8) (account : Address) (value : Nat) : TreasuryCall Usd8 :=
  if account = Address.zero then .error (.erc20InvalidReceiver account)
  else if fits : usd8.totalSupply + value < uintBound 256 then
    .ok
      { balances := Function.update usd8.balances account (usd8.balances account + value)
        totalSupply := usd8.totalSupply + value
        sound := by
          have total := usd8.sum_update account (usd8.balances account + value)
          omega
        fits := fits }
  else .error (.panic .overflow)

/-- `_burn`. -/
def burn (usd8 : Usd8) (account : Address) (value : Nat) : TreasuryCall Usd8 :=
  if account = Address.zero then .error (.erc20InvalidSender account)
  else if enough : value ≤ usd8.balances account then
    .ok
      { balances := Function.update usd8.balances account (usd8.balances account - value)
        totalSupply := usd8.totalSupply - value
        sound := by
          have total := usd8.sum_update account (usd8.balances account - value)
          have bounded := usd8.balance_le account
          omega
        fits := lt_of_le_of_lt (Nat.sub_le _ _) usd8.fits }
  else .error (.erc20InsufficientBalance account)

/-- `transfer`. -/
def transfer (usd8 : Usd8) (sender recipient : Address) (value : Nat) : TreasuryCall Usd8 :=
  if recipient = Address.zero then .error (.erc20InvalidReceiver recipient)
  else if enough : value ≤ usd8.balances sender then
    .ok { usd8 with
      balances := moveBalance usd8.balances sender recipient value
      sound := (sum_moveBalance usd8.balances sender recipient value enough).trans usd8.sound }
  else .error (.erc20InsufficientBalance sender)

end Usd8

/-! ## Contracts around the Treasury -/

/-- USDC, the strategies and the receivers of revenue, over their common state `σ`.
A call that reverts returns nothing. -/
structure ExternalContracts (σ : Type) where
  usdcBalance : σ → Address → Nat
  usdcTransfer : σ → Address → Address → Nat → Option σ
  totalAssets : σ → Address → Option Nat
  deploy : σ → Address → Nat → Option σ
  withdraw : σ → Address → Nat → Option σ
  /-- The hook of a receiver, who may spend the allowance he was given. -/
  receiveProfitDistribution : σ → Usd8 → Address → Nat → Option (σ × Usd8)

/-! ## Storage -/

def usdcToUsd8Scale : Nat := 10 ^ 12

def defaultHarvestBufferDivisor : Nat := 1000

def reserveCheckTolerance : Nat := 100

theorem usdcToUsd8Scale_pos : 0 < usdcToUsd8Scale := by decide

inductive RevenueDistributionMode where
  | directTransfer
  | receiveProfitDistribution
  deriving DecidableEq

/-- The weight is a `uint88`. -/
structure ProfitReceiver where
  receiver : Address
  weight : Nat
  mode : RevenueDistributionMode

inductive TreasuryEvent where
  | minted (user : Address) (usdcAmount usd8Amount : Nat)
  | redeemed (user : Address) (usd8Amount usdcAmount : Nat)
  | strategyAdded (strategy : Address)
  | strategyRemoved (strategy : Address)
  | depositedToStrategy (strategy : Address) (amount : Nat)
  | withdrawnFromStrategy (strategy : Address) (amount : Nat)
  | revenueDistributed (recipient : Address) (amount : Nat)
  | protocolFeePaid (recipient : Address) (amount : Nat)
  | profitReceiverSet (receiver : Address) (weight : Nat) (mode : RevenueDistributionMode)
  | profitReceiverRemoved (receiver : Address)
  | revenueHarvested (amount : Nat)

/-- No strategy is listed twice, so none is counted twice. -/
structure TreasuryState (σ : Type) where
  registry : Registry
  external : σ
  usd8 : Usd8
  harvestBufferDivisorSlot : Nat
  strategies : List Address
  distinct : strategies.Nodup
  profitReceivers : List ProfitReceiver
  events : List TreasuryEvent

namespace TreasuryState

variable {σ : Type} (contracts : ExternalContracts σ) (self : Address)

def emit (t : TreasuryState σ) (event : TreasuryEvent) : TreasuryState σ :=
  { t with events := t.events ++ [event] }

def harvestBufferDivisor (t : TreasuryState σ) : Nat :=
  if t.harvestBufferDivisorSlot = 0 then defaultHarvestBufferDivisor
  else t.harvestBufferDivisorSlot

/-! ## Reserve -/

/-- The loop of `getReserveBalance` over the strategies. -/
def reserveLoop (external : σ) : List Address → Nat → TreasuryCall Nat
  | [], total => pure total
  | strategy :: later, total => do
      let value ← orRevert (contracts.totalAssets external strategy) (.external strategy)
      let total ← checkedAdd 256 total value
      reserveLoop external later total

def getReserveBalance (t : TreasuryState σ) : TreasuryCall Nat :=
  reserveLoop contracts t.external t.strategies (contracts.usdcBalance t.external self)

/-- Compare the reserve and the supply after the operation with those before it. -/
def checkStatus (reserveBefore supplyBefore reserveAfter supplyAfter : Nat) :
    TreasuryCall Unit := do
  let reserveBeforeInUsd8 ← checkedMul 256 reserveBefore usdcToUsd8Scale
  let reserveAfterInUsd8 ← checkedMul 256 reserveAfter usdcToUsd8Scale
  let tol := reserveCheckTolerance * usdcToUsd8Scale
  if reserveBeforeInUsd8 ≥ supplyBefore then do
    let surplusBefore ← checkedSub reserveBeforeInUsd8 supplyBefore
    let tolerated ← checkedAdd 256 reserveAfterInUsd8 tol
    let expected ← checkedAdd 256 supplyAfter surplusBefore
    revertIf (tolerated < expected)
      (.reserveSupplyStatusWorsened reserveBefore supplyBefore reserveAfter supplyAfter)
  else do
    let tolerated ← checkedAdd 256 reserveAfterInUsd8 tol
    let left := mul512 tolerated supplyBefore
    let right := mul512 reserveBeforeInUsd8 supplyAfter
    revertIf (left.1 < right.1 ∨ left.1 = right.1 ∧ left.2 < right.2)
      (.reserveSupplyStatusWorsened reserveBefore supplyBefore reserveAfter supplyAfter)

/-- The modifier of `mintUSD8` and `redeemUSD8` around their body. -/
def reserveSupplyStatusCheck (t : TreasuryState σ)
    (body : TreasuryState σ → TreasuryCall (TreasuryState σ)) :
    TreasuryCall (TreasuryState σ) := do
  ofRegistry (requireNotPaused t.registry self)
  let reserveBefore ← t.getReserveBalance contracts self
  let supplyBefore := t.usd8.totalSupply
  let next ← body t
  let reserveAfter ← next.getReserveBalance contracts self
  let supplyAfter := next.usd8.totalSupply
  checkStatus reserveBefore supplyBefore reserveAfter supplyAfter
  pure next

/-- `USD8.onlyTreasury` for a call of this contract. -/
def requireTreasury (t : TreasuryState σ) : TreasuryCall Unit :=
  revertIf (self ≠ t.registry.treasury) (.unauthorizedTreasury self)

/-! ## Mint and redeem -/

def mintBody (sender : Address) (usdcAmount : Nat) (t : TreasuryState σ) :
    TreasuryCall (TreasuryState σ) := do
  revertIf (usdcAmount = 0) .zeroAmount
  let external ← orRevert (contracts.usdcTransfer t.external sender self usdcAmount)
    (.external sender)
  let usd8Amount ← checkedMul 256 usdcAmount usdcToUsd8Scale
  t.requireTreasury self
  let usd8 ← t.usd8.mint sender usd8Amount
  pure ({ t with external := external, usd8 := usd8 }.emit (.minted sender usdcAmount usd8Amount))

def mintUSD8 (t : TreasuryState σ) (sender : Address) (usdcAmount : Nat) :
    TreasuryCall (TreasuryState σ) :=
  t.reserveSupplyStatusCheck contracts self (mintBody contracts self sender usdcAmount)

/-- The loop of `_ensureIdleUsdc`: an early return once enough is idle, a strategy that
reverts is skipped. -/
def ensureIdleUsdc (amount : Nat) : List Address → σ → TreasuryCall σ
  | [], external => do
      let finalIdle := contracts.usdcBalance external self
      revertIf (finalIdle < amount) (.insufficientLiquidity amount finalIdle)
      pure external
  | strategy :: later, external =>
      let idle := contracts.usdcBalance external self
      if idle ≥ amount then pure external
      else do
        let needed ← checkedSub amount idle
        let available ← orRevert (contracts.totalAssets external strategy) (.external strategy)
        if available = 0 then ensureIdleUsdc amount later external
        else
          let toPull := if needed < available then needed else available
          match contracts.withdraw external strategy toPull with
          | some pulled => ensureIdleUsdc amount later pulled
          | none => ensureIdleUsdc amount later external

/-- What `redeemUSD8` computes before it burns. -/
def redeemQuote (t : TreasuryState σ) (usd8Amount : Nat) : TreasuryCall Nat := do
  let supply := t.usd8.totalSupply
  revertIf (supply = 0) .noUsd8Supply
  let reserve ← t.getReserveBalance contracts self
  let reserveInUsd8 ← checkedMul 256 reserve usdcToUsd8Scale
  let eff := if reserveInUsd8 < supply then reserveInUsd8 else supply
  let scaled ← mulDiv usd8Amount eff supply
  pure (scaled / usdcToUsd8Scale)

def redeemBody (sender : Address) (usd8Amount minUsdcOut : Nat) (t : TreasuryState σ) :
    TreasuryCall (TreasuryState σ) := do
  revertIf (usd8Amount = 0) .zeroAmount
  let usdcAmount ← t.redeemQuote contracts self usd8Amount
  revertIf (usdcAmount < minUsdcOut) (.insufficientUsdcOut usdcAmount minUsdcOut)
  t.requireTreasury self
  let usd8 ← t.usd8.burn sender usd8Amount
  let external ← ensureIdleUsdc contracts self usdcAmount t.strategies t.external
  let external ← orRevert (contracts.usdcTransfer external self sender usdcAmount)
    (.external sender)
  pure ({ t with external := external, usd8 := usd8 }.emit
    (.redeemed sender usd8Amount usdcAmount))

def redeemUSD8 (t : TreasuryState σ) (sender : Address) (usd8Amount minUsdcOut : Nat) :
    TreasuryCall (TreasuryState σ) :=
  t.reserveSupplyStatusCheck contracts self
    (redeemBody contracts self sender usd8Amount minUsdcOut)

/-! ## Strategies -/

def requireApprovedStrategy (t : TreasuryState σ) (strategy : Address) : TreasuryCall Unit :=
  revertIf (strategy ∉ t.strategies) (.strategyNotApproved strategy)

theorem insert_distinct (strategies : List Address) (index : Nat) (strategy : Address)
    (distinct : strategies.Nodup) (fresh : strategy ∉ strategies) :
    (strategies.take index ++ strategy :: strategies.drop index).Nodup := by
  rw [List.nodup_middle, List.take_append_drop]
  exact List.nodup_cons.mpr ⟨fresh, distinct⟩

/-- An index beyond the array appends. -/
def addStrategy (t : TreasuryState σ) (sender strategy : Address) (index : Nat) :
    TreasuryCall (TreasuryState σ) :=
  if sender ≠ t.registry.timelock then .error (.registry (.unauthorizedTimelock sender))
  else if strategy = Address.zero then .error .zeroAddress
  else if listed : strategy ∈ t.strategies then .error (.strategyAlreadyApproved strategy)
  else
    .ok ({ t with
      strategies := t.strategies.take index ++ strategy :: t.strategies.drop index
      distinct := insert_distinct t.strategies index strategy t.distinct listed }.emit
        (.strategyAdded strategy))

def removeStrategy (t : TreasuryState σ) (sender strategy : Address) :
    TreasuryCall (TreasuryState σ) := do
  revertIf (sender ≠ t.registry.timelock) (.registry (.unauthorizedTimelock sender))
  t.requireApprovedStrategy strategy
  pure ({ t with
    strategies := t.strategies.eraseIdx (t.strategies.idxOf strategy)
    distinct := t.distinct.sublist (List.eraseIdx_sublist ..) }.emit (.strategyRemoved strategy))

def depositToStrategy (t : TreasuryState σ) (sender strategy : Address) (amount : Nat) :
    TreasuryCall (TreasuryState σ) := do
  ofRegistry (requireAdminOrTimelock t.registry sender)
  ofRegistry (requireNotPaused t.registry self)
  revertIf (amount = 0) .zeroAmount
  t.requireApprovedStrategy strategy
  let reserveBefore ← t.getReserveBalance contracts self
  let pushed ← orRevert (contracts.usdcTransfer t.external self strategy amount)
    (.external strategy)
  let deployed ← orRevert (contracts.deploy pushed strategy amount) (.external strategy)
  let next := { t with external := deployed }
  let reserveAfter ← next.getReserveBalance contracts self
  let tolerated ← checkedAdd 256 reserveAfter reserveCheckTolerance
  revertIf (tolerated < reserveBefore) (.strategyDeployReserveLoss reserveBefore reserveAfter)
  pure (next.emit (.depositedToStrategy strategy amount))

def withdrawFromStrategy (t : TreasuryState σ) (sender strategy : Address) (amount : Nat) :
    TreasuryCall (TreasuryState σ) := do
  ofRegistry (requireAdminOrTimelock t.registry sender)
  ofRegistry (requireNotPaused t.registry self)
  t.requireApprovedStrategy strategy
  revertIf (amount = 0) .zeroAmount
  let balanceBefore := contracts.usdcBalance t.external self
  let pulled ← orRevert (contracts.withdraw t.external strategy amount) (.external strategy)
  let received ← checkedSub (contracts.usdcBalance pulled self) balanceBefore
  pure ({ t with external := pulled }.emit (.withdrawnFromStrategy strategy received))

/-! ## Harvest -/

/-- Mint the reserve surplus above the retained buffer to the Treasury. -/
def harvestSurplus (t : TreasuryState σ) : TreasuryCall (TreasuryState σ × Nat) := do
  let supply := t.usd8.totalSupply
  let reserve ← t.getReserveBalance contracts self
  let reserveInUsd8 ← checkedMul 256 reserve usdcToUsd8Scale
  let buffer ← checkedDiv supply t.harvestBufferDivisor
  let retain ← checkedAdd 256 supply buffer
  if reserveInUsd8 > retain then do
    let harvested ← checkedSub reserveInUsd8 retain
    t.requireTreasury self
    let usd8 ← t.usd8.mint self harvested
    pure ({ t with usd8 := usd8 }.emit (.revenueHarvested harvested), harvested)
  else pure (t, 0)

/-- The first pass over the receivers: their total weight and the last one with any. -/
def weighReceivers : List ProfitReceiver → Nat → Nat → Nat → TreasuryCall (Nat × Nat)
  | [], _, totalWeight, lastEligible => pure (totalWeight, lastEligible)
  | receiver :: later, i, totalWeight, lastEligible =>
      if receiver.weight ≠ 0 then do
        let totalWeight ← checkedAdd 256 totalWeight receiver.weight
        weighReceivers later (i + 1) totalWeight i
      else weighReceivers later (i + 1) totalWeight lastEligible

/-- Deliver a share by a transfer or through the receiver's hook. -/
def deliver (t : TreasuryState σ) (p : ProfitReceiver) (share : Nat) :
    TreasuryCall (TreasuryState σ) :=
  match p.mode with
  | .directTransfer => do
      let usd8 ← t.usd8.transfer self p.receiver share
      pure { t with usd8 := usd8 }
  | .receiveProfitDistribution => do
      let balanceBefore := t.usd8.balances self
      let (external, usd8) ←
        orRevert (contracts.receiveProfitDistribution t.external t.usd8 p.receiver share)
          (.external p.receiver)
      let balanceAfter := usd8.balances self
      let delivered := if balanceAfter ≤ balanceBefore then balanceBefore - balanceAfter else 0
      revertIf (delivered ≠ share) (.revenueDeliveryMismatch share delivered)
      pure { t with external := external, usd8 := usd8 }

/-- The second pass: every receiver his share, the last one the rest. -/
def distributeLoop (weightedRevenue totalWeight lastEligible : Nat) :
    List ProfitReceiver → Nat → Nat → TreasuryState σ → TreasuryCall (TreasuryState σ)
  | [], _, _, t => pure t
  | p :: later, i, paid, t =>
      if p.weight = 0 then
        distributeLoop weightedRevenue totalWeight lastEligible later (i + 1) paid t
      else do
        let share ← (if i = lastEligible then checkedSub weightedRevenue paid
          else mulDiv weightedRevenue p.weight totalWeight)
        let paid ← checkedAdd 256 paid share
        if share = 0 then
          distributeLoop weightedRevenue totalWeight lastEligible later (i + 1) paid t
        else do
          let t ← t.deliver contracts self p share
          distributeLoop weightedRevenue totalWeight lastEligible later (i + 1) paid
            (t.emit (.revenueDistributed p.receiver share))

def distributeRevenue (t : TreasuryState σ) (distributed : Nat) :
    TreasuryCall (TreasuryState σ) := do
  let (totalWeight, lastEligible) ←
    weighReceivers t.profitReceivers 0 0 (uintBound 256 - 1)
  revertIf (totalWeight = 0) .noEligibleProfitReceivers
  let feeConfig := t.registry.protocolFeeConfig
  let protocolFee ← mulDiv distributed feeConfig.reserveYieldFeeBps 10000
  let weightedRevenue ← checkedSub distributed protocolFee
  let t ← (if protocolFee ≠ 0 then do
      let usd8 ← t.usd8.transfer self feeConfig.receiver protocolFee
      pure ({ t with usd8 := usd8 }.emit (.protocolFeePaid feeConfig.receiver protocolFee))
    else pure t)
  distributeLoop contracts self weightedRevenue totalWeight lastEligible t.profitReceivers 0 0 t

/-- Returns what was harvested and what was distributed. -/
def harvestAndDistribute (t : TreasuryState σ) (sender : Address) :
    TreasuryCall (TreasuryState σ × Nat × Nat) := do
  ofRegistry (requireAdminOrTimelock t.registry sender)
  ofRegistry (requireNotPaused t.registry self)
  let (t, harvested) ← t.harvestSurplus contracts self
  let distributed := t.usd8.balances self
  if distributed = 0 then pure (t, harvested, distributed)
  else do
    let t ← t.distributeRevenue contracts self distributed
    pure (t, harvested, distributed)

/-! ## Receivers of revenue -/

/-- Overwrite the entry of a registered receiver, or append one. -/
def upsertReceiver (entry : ProfitReceiver) : List ProfitReceiver → List ProfitReceiver
  | [] => [entry]
  | p :: later =>
      if p.receiver = entry.receiver then entry :: later else p :: upsertReceiver entry later

def setProfitReceiver (t : TreasuryState σ) (sender receiver : Address) (weight : Nat)
    (mode : RevenueDistributionMode) : TreasuryCall (TreasuryState σ) := do
  ofRegistry (requireAdminOrTimelock t.registry sender)
  revertIf (receiver = Address.zero) .zeroAddress
  revertIf (receiver = self) (.invalidProfitReceiver receiver)
  revertIf (uintBound 88 ≤ weight) (.safeCastOverflowedUintDowncast 88 weight)
  pure ({ t with profitReceivers := upsertReceiver ⟨receiver, weight, mode⟩ t.profitReceivers }.emit
    (.profitReceiverSet receiver weight mode))

/-- The last entry takes the place of the removed one. -/
def swapRemove (receiver : Address) (receivers : List ProfitReceiver) :
    Option (List ProfitReceiver) := do
  let index ← receivers.findIdx? (·.receiver = receiver)
  let moved ← receivers.getLast?
  pure (receivers.set index moved).dropLast

def removeProfitReceiver (t : TreasuryState σ) (sender receiver : Address) :
    TreasuryCall (TreasuryState σ) := do
  ofRegistry (requireAdminOrTimelock t.registry sender)
  let receivers ← orRevert (swapRemove receiver t.profitReceivers)
    (.profitReceiverNotFound receiver)
  pure ({ t with profitReceivers := receivers }.emit (.profitReceiverRemoved receiver))

/-! ## Runs -/

inductive Operation where
  | mintUSD8 (usdcAmount : Nat)
  | redeemUSD8 (usd8Amount minUsdcOut : Nat)
  | depositToStrategy (strategy : Address) (amount : Nat)
  | withdrawFromStrategy (strategy : Address) (amount : Nat)
  | harvestAndDistribute
  deriving DecidableEq

structure TreasuryTx where
  sender : Address
  operation : Operation
  deriving DecidableEq

/-- Transactions come from accounts that are neither the Treasury nor a strategy. -/
def External (t : TreasuryState σ) (sender : Address) : Prop :=
  sender ≠ self ∧ sender ∉ t.strategies

instance (t : TreasuryState σ) (sender : Address) : Decidable (t.External self sender) := by
  unfold External
  infer_instance

def exec (t : TreasuryState σ) (sender : Address) : Operation → TreasuryCall (TreasuryState σ)
  | .mintUSD8 usdcAmount => t.mintUSD8 contracts self sender usdcAmount
  | .redeemUSD8 usd8Amount minUsdcOut => t.redeemUSD8 contracts self sender usd8Amount minUsdcOut
  | .depositToStrategy strategy amount => t.depositToStrategy contracts self sender strategy amount
  | .withdrawFromStrategy strategy amount =>
      t.withdrawFromStrategy contracts self sender strategy amount
  | .harvestAndDistribute => do
      let (t, _, _) ← t.harvestAndDistribute contracts self sender
      pure t

def step (t : TreasuryState σ) (tx : TreasuryTx) : TreasuryCall (TreasuryState σ) := do
  revertIf (¬ t.External self tx.sender) (.external tx.sender)
  t.exec contracts self tx.sender tx.operation

end TreasuryState

end Usd8Core.Treasury
