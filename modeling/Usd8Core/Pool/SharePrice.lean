import Usd8Core.Insurance.Payouts
import Usd8Core.Lib.VirtualShares
import Usd8Core.Pool.PoolRuns

/-!
# The share price

The pool prices its shares as a vault with one virtual unit of assets and a
thousand virtual shares.  Every conversion rounds in favour of the pool, so the
price falls only when a claim is paid, or when the last shares leave with
everything.
-/

set_option autoImplicit false

namespace Usd8Core.Pool

open Usd8Core.Lib.ByteWords
open Usd8Core.Lib.CheckedCall
open Usd8Core.Lib.TraceRun
open Usd8Core.Lib.VirtualShares
open Usd8Core.Chain
open Usd8Core.Insurance

def priceOffset : Offset where
  assets := 1
  shares := SingleAssetCoverPool.virtualShares
  assetsPos := by decide
  sharesPos := by decide

def vault (pool : SingleAssetCoverPool) : Vault := ⟨pool.totalAssets, pool.totalSupply⟩

/-! ## The conversions of the pool -/

section Conversions

variable {pool : SingleAssetCoverPool}

/-- The sums every conversion computes first. -/
def SumsFit (pool : SingleAssetCoverPool) : Prop :=
  pool.totalSupply + SingleAssetCoverPool.virtualShares < uintBound 256 ∧
    pool.totalAssets + 1 < uintBound 256

theorem convertToSharesDown_ok_iff (assets shares : Nat) :
    pool.convertToSharesDown assets = .ok shares ↔
      SumsFit pool ∧ toSharesDown priceOffset (vault pool) assets < uintBound 256 ∧
        shares = toSharesDown priceOffset (vault pool) assets := by
  simp only [SingleAssetCoverPool.convertToSharesDown, bind_ok_iff, checkedAdd_ok_iff,
    mulDiv_ok_iff]
  constructor
  · rintro ⟨supply, ⟨supplyFits, rfl⟩, total, ⟨totalFits, rfl⟩, -, fits, sharesEq⟩
    exact ⟨⟨supplyFits, totalFits⟩, fits, sharesEq⟩
  · rintro ⟨⟨supplyFits, totalFits⟩, fits, sharesEq⟩
    exact ⟨_, ⟨supplyFits, rfl⟩, _, ⟨totalFits, rfl⟩, Nat.succ_ne_zero _, fits, sharesEq⟩

theorem convertToAssetsDown_ok_iff (shares assets : Nat) :
    pool.convertToAssetsDown shares = .ok assets ↔
      SumsFit pool ∧ toAssetsDown priceOffset (vault pool) shares < uintBound 256 ∧
        assets = toAssetsDown priceOffset (vault pool) shares := by
  simp only [SingleAssetCoverPool.convertToAssetsDown, bind_ok_iff, checkedAdd_ok_iff,
    mulDiv_ok_iff]
  constructor
  · rintro ⟨total, ⟨totalFits, rfl⟩, supply, ⟨supplyFits, rfl⟩, -, fits, assetsEq⟩
    exact ⟨⟨supplyFits, totalFits⟩, fits, assetsEq⟩
  · rintro ⟨⟨supplyFits, totalFits⟩, fits, assetsEq⟩
    exact ⟨_, ⟨totalFits, rfl⟩, _, ⟨supplyFits, rfl⟩, Nat.succ_ne_zero _, fits, assetsEq⟩

theorem previewMint_ok_iff (shares assets : Nat) :
    pool.previewMint shares = .ok assets ↔
      SumsFit pool ∧ toAssetsUp priceOffset (vault pool) shares < uintBound 256 ∧
        assets = toAssetsUp priceOffset (vault pool) shares := by
  simp only [SingleAssetCoverPool.previewMint, bind_ok_iff, checkedAdd_ok_iff, mulDivUp_ok_iff]
  constructor
  · rintro ⟨total, ⟨totalFits, rfl⟩, supply, ⟨supplyFits, rfl⟩, -, fits, assetsEq⟩
    exact ⟨⟨supplyFits, totalFits⟩, fits, assetsEq⟩
  · rintro ⟨⟨supplyFits, totalFits⟩, fits, assetsEq⟩
    exact ⟨_, ⟨totalFits, rfl⟩, _, ⟨supplyFits, rfl⟩, Nat.succ_ne_zero _, fits, assetsEq⟩

/-- Shares are never sold below the price. -/
theorem terms_fair (assets shares : Nat)
    (terms : pool.previewDeposit assets = .ok shares ∨ pool.previewMint shares = .ok assets) :
    shares * ((vault pool).assets + priceOffset.assets) ≤
      assets * ((vault pool).shares + priceOffset.shares) := by
  rcases terms with preview | preview
  · obtain ⟨-, -, rfl⟩ := (convertToSharesDown_ok_iff assets shares).mp preview
    exact toSharesDown_le assets
  · obtain ⟨-, -, rfl⟩ := (previewMint_ok_iff shares assets).mp preview
    exact le_toAssetsUp shares

end Conversions

/-! ## One settled epoch -/

/-- Shares only leave, and as long as some stay they are worth no less. -/
structure Shrinks (pool next : SingleAssetCoverPool) : Prop where
  supply : next.totalSupply ≤ pool.totalSupply
  price : next.totalSupply ≠ 0 → NotDiluted priceOffset (vault pool) (vault next)

section Settlement

variable {pool next : SingleAssetCoverPool} {self : Address} {now : Nat}

theorem Shrinks.ofSame (assets : next.totalAssets = pool.totalAssets)
    (supply : next.totalSupply = pool.totalSupply) : Shrinks pool next := by
  refine ⟨supply.le, fun _ => ?_⟩
  have same : vault next = vault pool := Vault.ext assets supply
  rw [same]
  exact NotDiluted.refl _

theorem Shrinks.trans {middle : SingleAssetCoverPool} (first : Shrinks pool middle)
    (second : Shrinks middle next) : Shrinks pool next := by
  refine ⟨second.supply.trans first.supply, fun sharesLeft => ?_⟩
  have leftBetween : middle.totalSupply ≠ 0 := by
    have fewer := second.supply
    omega
  exact (first.price leftBetween).trans (second.price sharesLeft)

/-- What a settled epoch takes out of the pool. -/
structure EpochDrawn (pool next : SingleAssetCoverPool) (exitEpoch shares assets : Nat) :
    Prop where
  sharesEq : (pool.exitEpochs exitEpoch).totalShares = shares
  fixed : (next.exitEpochs exitEpoch).totalAssets = assets
  enough : assets ≤ pool.totalAssets
  left : next.totalAssets = pool.totalAssets - assets
  burned : next.totalSupply = pool.totalSupply - shares
  whole : shares = pool.totalSupply → assets = pool.totalAssets
  partly : shares ≠ pool.totalSupply →
    assets = toAssetsDown priceOffset (vault pool) shares

theorem settleEpoch_drawn (exitEpoch : Nat) (event : Event)
    (run : pool.settleEpoch self now exitEpoch = .ok (next, event)) :
    ∃ shares assets, EpochDrawn pool next exitEpoch shares assets ∧
      event = .exitEpochSettled exitEpoch shares assets := by
  obtain ⟨assets, epochAssets, enough, selfNotZero, eventEq, burnt⟩ :=
    settleEpoch_ok pool next self now exitEpoch event run
  obtain ⟨-, acc, moved⟩ := update_erc20 _ next self now self Address.zero _ burnt
  obtain ⟨-, nextEq⟩ := erc20Update_burn _ next self self _ selfNotZero moved
  refine ⟨_, assets, ⟨rfl, ?_, enough, ?_, ?_, ?_, ?_⟩, eventEq⟩
  · rw [nextEq]
    simp [withAccumulator, fixedEpoch]
  · rw [nextEq]
    rfl
  · rw [nextEq]
    rfl
  · intro whole
    rcases epochAssets with ⟨-, assetsEq⟩ | ⟨notWhole, -⟩
    · exact assetsEq
    · exact absurd whole notWhole
  · intro notWhole
    rcases epochAssets with ⟨whole, -⟩ | ⟨-, preview⟩
    · exact absurd whole notWhole
    · exact ((convertToAssetsDown_ok_iff _ _).mp preview).2.2

theorem EpochDrawn.shrinks {exitEpoch shares assets : Nat}
    (drawn : EpochDrawn pool next exitEpoch shares assets) : Shrinks pool next := by
  have vaultEq : vault next =
      ⟨(vault pool).assets - assets, (vault pool).shares - shares⟩ :=
    Vault.ext drawn.left drawn.burned
  refine ⟨by rw [drawn.burned]; exact Nat.sub_le _ _, fun sharesLeft => ?_⟩
  have inside : shares < pool.totalSupply := by
    have left := drawn.burned
    omega
  have fair := drawn.partly (Nat.ne_of_lt inside)
  rw [vaultEq]
  apply NotDiluted.redeem drawn.enough (Nat.le_of_lt inside)
  rw [fair]
  exact toAssetsDown_le shares

/-- Epochs that are settled one after another. -/
abbrev Draws : SingleAssetCoverPool → SingleAssetCoverPool → Prop :=
  Relation.ReflTransGen fun pool next =>
    ∃ exitEpoch shares assets, EpochDrawn pool next exitEpoch shares assets

theorem Draws.shrinks (draws : Draws pool next) : Shrinks pool next := by
  induction draws with
  | refl => exact .ofSame rfl rfl
  | tail _ last ih =>
      obtain ⟨exitEpoch, shares, assets, drawn⟩ := last
      exact ih.trans drawn.shrinks

theorem settleMatured_draws (maxEpochs : Nat) (events : List Event)
    (run : pool.settleMatured self now maxEpochs = .ok (next, events)) :
    ∃ last, Draws pool last ∧ vault next = vault last := by
  obtain ⟨index, final, draws, nextEq⟩ := settleMatured_induct pool next self now maxEpochs
    events (fun _ current _ => Draws pool current) .refl
    (by
      intro index before earlier exitEpoch after event draws _ _ epochRun
      obtain ⟨shares, assets, drawn, -⟩ := settleEpoch_drawn exitEpoch event epochRun
      exact draws.tail ⟨exitEpoch, shares, assets, drawn⟩)
    run
  rw [nextEq]
  exact ⟨final, draws, rfl⟩

theorem settleMatured_shrinks (maxEpochs : Nat) (events : List Event)
    (run : pool.settleMatured self now maxEpochs = .ok (next, events)) : Shrinks pool next := by
  obtain ⟨last, draws, totals⟩ := settleMatured_draws maxEpochs events run
  exact draws.shrinks.trans
    (.ofSame (congrArg Vault.assets totals) (congrArg Vault.shares totals))

end Settlement

/-! ## What a call does to the totals -/

/-- A call sells shares, pays a claim or settles epochs. -/
inductive TotalsChange (call : PoolCall) (pool next : SingleAssetCoverPool) : Prop
  | sold (assets shares : Nat)
      (terms : pool.previewDeposit assets = .ok shares ∨ pool.previewMint shares = .ok assets)
      (totals : vault next = ⟨(vault pool).assets + assets, (vault pool).shares + shares⟩)
  | paid (recipient : Address) (amount : Nat) (called : call = .payClaim recipient amount)
      (nonzero : amount ≠ 0)
      (totals : vault next = ⟨(vault pool).assets - amount, (vault pool).shares⟩)
  | drawn (last : SingleAssetCoverPool) (draws : Draws pool last)
      (totals : vault next = vault last)

/-- If any shares are left, they are worth no less than before. -/
def PriceKept (tx next : PoolTx) : Prop :=
  next.pool.totalSupply ≠ 0 → NotDiluted priceOffset (vault tx.pool) (vault next.pool)

section Calls

variable {env : PoolEnv} {tx next : PoolTx}

theorem TotalsChange.same {call : PoolCall} {pool after : SingleAssetCoverPool}
    (totals : vault after = vault pool) : TotalsChange call pool after :=
  .drawn pool .refl totals

theorem maybeSettled_draws (maxEpochs : Nat)
    (first : (env.payoutIncidentActive = false ∧ Settled env tx next maxEpochs) ∨ next = tx) :
    ∃ last, Draws tx.pool last ∧ vault next.pool = vault last := by
  rcases first with ⟨-, ⟨pool, events, run, nextEq⟩⟩ | same
  · subst nextEq
    exact settleMatured_draws maxEpochs events run
  · subst same
    exact ⟨next.pool, .refl, rfl⟩

theorem deposited_totals (receiver : Address) (assets shares : Nat)
    (deposited : Deposited env tx next receiver assets shares) :
    vault next.pool = ⟨(vault tx.pool).assets + assets, (vault tx.pool).shares + shares⟩ := by
  obtain ⟨pool, minted, poolEq⟩ := deposited.minted
  obtain ⟨-, acc, moved⟩ := update_erc20 _ pool _ _ _ _ _ minted
  obtain ⟨-, mintEq⟩ := erc20Update_mint _ pool _ _ _ deposited.receiverNotZero moved
  rw [poolEq, mintEq]
  rfl

/-- A move of shares between accounts other than the zero address changes no total. -/
theorem moved_totals (pool final : SingleAssetCoverPool) (self sender recipient : Address)
    (value : Nat) (senderNotZero : sender ≠ Address.zero)
    (recipientNotZero : recipient ≠ Address.zero)
    (run : pool.erc20Update self sender recipient value = .ok final) :
    vault final = vault pool := by
  obtain ⟨-, finalEq⟩ := erc20Update_move pool final self sender recipient value senderNotZero
    recipientNotZero run
  rw [finalEq]
  rfl

theorem enqueueRedeem_totals (caller : CallerOk env) (pool after : SingleAssetCoverPool)
    (shares exitEpoch : Nat)
    (run : PoolTx.enqueueRedeem env pool shares exitEpoch = .ok after) :
    vault after = vault pool := by
  obtain ⟨synced, userSynced, global, user, moved⟩ :=
    enqueueRedeem_ok env pool after shares exitEpoch run
  obtain ⟨acc, syncedEq⟩ := checkpointGlobalRewards_accumulator _ synced env.self env.now global
  obtain ⟨userAcc, userEq⟩ :=
    checkpointUserRewards_accumulator synced userSynced env.self env.now env.sender user
  rw [moved_totals _ after _ _ _ _ caller.senderNotZero caller.selfNotZero moved, userEq, syncedEq]
  rfl

theorem rewardClaimed_totals (synced : SingleAssetCoverPool)
    (claimed : RewardClaimed env tx next synced) : vault next.pool = vault tx.pool := by
  obtain ⟨⟨global, globalRun, userRun⟩, paid⟩ := claimed
  obtain ⟨first, globalEq⟩ :=
    checkpointGlobalRewards_accumulator tx.pool global env.self env.now globalRun
  obtain ⟨second, syncedEq⟩ :=
    checkpointUserRewards_accumulator global synced env.self env.now env.sender userRun
  subst globalEq syncedEq
  rcases paid with ⟨-, nextEq⟩ | ⟨-, -, -, poolEq, -⟩
  · rw [nextEq]
    rfl
  · rw [poolEq]
    rfl

theorem exec_totals (caller : CallerOk env) (call : PoolCall)
    (run : PoolTx.exec env tx call = .ok next) : TotalsChange call tx.pool next.pool := by
  unfold PoolTx.exec at run
  obtain ⟨_, -, run⟩ := (bind_ok_iff _ _ _).mp run
  cases call with
  | deposit assets receiver =>
      obtain ⟨shares, deposited⟩ := deposit_ok env tx next assets receiver run
      exact .sold assets shares deposited.terms (deposited_totals receiver assets shares deposited)
  | mint shares receiver =>
      obtain ⟨assets, deposited⟩ := mint_ok env tx next shares receiver run
      exact .sold assets shares deposited.terms (deposited_totals receiver assets shares deposited)
  | transfer recipient value =>
      obtain ⟨notZero, pool, updated, nextEq⟩ := transfer_ok env tx next recipient value run
      obtain ⟨-, acc, moved⟩ := update_erc20 _ pool _ _ _ _ _ updated
      have totals := moved_totals _ pool _ _ _ _ caller.senderNotZero notZero moved
      subst nextEq
      exact .same totals
  | requestRedeem shares =>
      obtain ⟨settled, exitEpoch, requested⟩ := requestRedeem_ok env tx next shares run
      obtain ⟨last, draws, totals⟩ := maybeSettled_draws _ requested.first
      obtain ⟨pool, enqueued, nextEq⟩ := requested.enqueued
      subst nextEq
      exact .drawn last draws
        ((enqueueRedeem_totals caller settled.pool pool shares exitEpoch enqueued).trans totals)
  | settleMaturedExitEpochs maxEpochs =>
      obtain ⟨active, settled⟩ := settleMaturedExitEpochs_ok env tx next maxEpochs run
      obtain ⟨last, draws, totals⟩ := maybeSettled_draws maxEpochs (Or.inl ⟨active, settled⟩)
      exact .drawn last draws totals
  | completeRedeem receiver =>
      obtain ⟨settled, assets, completed⟩ := completeRedeem_ok env tx next receiver run
      obtain ⟨last, draws, totals⟩ := maybeSettled_draws _ completed.first
      refine .drawn last draws (Eq.trans ?_ totals)
      rw [completed.pool]
      rfl
  | claimReward =>
      obtain ⟨synced, claimed⟩ := claimReward_ok env tx next run
      exact .same (rewardClaimed_totals synced claimed)
  | receiveProfitDistribution amount =>
      obtain ⟨synced, newDuration, newRate, profit⟩ :=
        receiveProfitDistribution_ok env tx next amount run
      obtain ⟨acc, syncedEq⟩ :=
        checkpointGlobalRewards_accumulator _ synced env.self env.now profit.checkpointed
      have poolEq := profit.pool
      subst syncedEq
      apply TotalsChange.same
      rw [poolEq]
      rfl
  | payClaim recipient amount =>
      rcases (payClaim_ok env tx next recipient amount run).paid with
        ⟨-, nextEq⟩ | ⟨nonzero, -, -, poolEq, -⟩
      · subst nextEq
        exact .same rfl
      · refine .paid recipient amount rfl nonzero ?_
        rw [poolEq]
        rfl
  | setRewardsDuration newDuration =>
      rw [setRewardsDuration_ok env tx next newDuration run]
      exact .same rfl
  | setDepositCap newCap =>
      rw [setDepositCap_ok env tx next newCap run]
      exact .same rfl
  | sweepToken token recipient =>
      obtain ⟨-, amount, -, -, poolEq, -⟩ := sweepToken_ok env tx next token recipient run
      rw [poolEq]
      exact .same rfl

/-- Every call but a payment keeps the price. -/
theorem exec_priceKept (caller : CallerOk env) (call : PoolCall)
    (unpaid : ∀ recipient amount, call = .payClaim recipient amount → amount = 0)
    (run : PoolTx.exec env tx call = .ok next) : PriceKept tx next := by
  intro sharesLeft
  cases exec_totals caller call run with
  | sold assets shares terms totals =>
      rw [totals]
      exact NotDiluted.issue (terms_fair assets shares terms)
  | paid recipient amount called nonzero totals =>
      exact absurd (unpaid recipient amount called) nonzero
  | drawn last draws totals =>
      have sameSupply : next.pool.totalSupply = last.totalSupply := congrArg Vault.shares totals
      rw [totals]
      exact draws.shrinks.price (sameSupply ▸ sharesLeft)

end Calls

/-! ## In the running system -/

/-- From one world to the next the pool at `p` only pays out on claims and exits: unless
a claim is paid the shares that stay keep their price. -/
def PaysOut (p : Address) (w next : World) : Prop :=
  claimsPaid w p ≤ claimsPaid next p ∧
    ∀ pool, w.pools p = some pool → ∃ after, next.pools p = some after ∧
      (claimsPaid next p = claimsPaid w p → Shrinks pool after)

section Runs

variable {platform : Platform} {p m sender : Address} {w next : World}

theorem PaysOut.ofSame (pools : next.pools p = w.pools p)
    (paid : claimsPaid next p = claimsPaid w p) : PaysOut p w next := by
  refine ⟨paid.ge, fun pool present => ⟨pool, pools.trans present, fun _ => ?_⟩⟩
  exact .ofSame rfl rfl

theorem PaysOut.trans {middle : World} (first : PaysOut p w middle)
    (second : PaysOut p middle next) : PaysOut p w next := by
  refine ⟨first.1.trans second.1, ?_⟩
  intro pool present
  obtain ⟨between, presentBetween, kept⟩ := first.2 pool present
  obtain ⟨after, presentAfter, keptAfter⟩ := second.2 between presentBetween
  refine ⟨after, presentAfter, fun unpaid => ?_⟩
  have ordered := first.1
  have orderedAfter := second.1
  exact (kept (by omega)).trans (keptAfter (by omega))

/-- Both calls a module makes to a pool. -/
theorem moduleCall_paysOut (other : Address) (call : PoolCall) (allowed : FromModule call)
    (run : w.callPool other m call = .ok next) : PaysOut p w next := by
  obtain ⟨pool, tx, present, executed, nextEq⟩ := callPool_ok m call run
  by_cases same : p = other
  · subst same
    have presentAfter : next.pools p = some tx.pool := by
      rw [nextEq, emitAll_eq]
      exact Function.update_self ..
    cases call with
    | settleMaturedExitEpochs maxEpochs =>
        obtain ⟨_, -, settleRun⟩ := (bind_ok_iff _ _ _).mp executed
        obtain ⟨active, settled⟩ := settleMaturedExitEpochs_ok _ _ tx maxEpochs settleRun
        have shrinks : Shrinks pool tx.pool := by
          obtain ⟨after, events, ran, txEq⟩ := settled
          rw [txEq]
          exact settleMatured_shrinks maxEpochs events ran
        have grown : claimsPaid w p ≤ claimsPaid next p := by
          rw [nextEq, claimsPaid_emitAll]
          exact Nat.le_add_right _ _
        refine ⟨grown, fun before presentBefore => ?_⟩
        cases present.symm.trans presentBefore
        exact ⟨tx.pool, presentAfter, fun _ => shrinks⟩
    | payClaim recipient amount =>
        have paid := payClaim_poolPaid recipient amount run
        refine ⟨by rw [paid.paid]; exact Nat.le_add_right _ _, fun before presentBefore => ?_⟩
        obtain ⟨found, presentFound, -, presentNext⟩ := paid.pool
        cases presentBefore.symm.trans presentFound
        refine ⟨_, presentNext, fun unpaid => ?_⟩
        have nothing : amount = 0 := by
          have total := paid.paid
          omega
        subst nothing
        exact .ofSame rfl rfl
    | _ => exact absurd allowed id
  · obtain ⟨-, -, -, -, otherPools⟩ := callPool_frame m call run
    refine .ofSame (otherPools p same) ?_
    rw [nextEq, claimsPaid_emitAll, if_neg (Ne.symm same)]
    rfl

theorem moduleEffect_paysOut (effect : ModuleEffect platform m sender w next) :
    PaysOut p w next := by
  cases effect with
  | stored before after deployed => exact .ofSame rfl rfl
  | emitted event own => exact .ofSame rfl (claimsPaid_emitOwn p event own)
  | moved token payer recipient amount erc20 payerKnown run => exact .ofSame rfl rfl
  | boosted erc1155 others => exact .ofSame rfl rfl
  | called _ other call allowed run => exact moduleCall_paysOut other call allowed run
  | scored account amount registry event run =>
      obtain ⟨-, eventEq, -⟩ := recordScoreSpent_ok w.registry registry m account amount event run
      refine .ofSame rfl ?_
      rw [claimsPaid_emit, eventEq]
      split <;> rfl

theorem effects_paysOut (effects : ModuleEffects platform m sender w next) : PaysOut p w next := by
  induction effects with
  | refl => exact .ofSame rfl rfl
  | tail _ last ih => exact ih.trans (moduleEffect_paysOut last)

/-- In every step of the system that pays no claim out of the pool. -/
theorem step_priceKept {tx : Tx} {pool after : SingleAssetCoverPool} (deployment : Deployment w)
    (ran : step platform w tx = .ok next) (present : w.pools p = some pool)
    (presentAfter : next.pools p = some after) (sharesLeft : after.totalSupply ≠ 0)
    (unpaid : claimsPaid next p = claimsPaid w p) :
    NotDiluted priceOffset (vault pool) (vault after) := by
  have paysOut : PaysOut p w next → NotDiluted priceOffset (vault pool) (vault after) := by
    rintro ⟨-, effect⟩
    obtain ⟨found, presentFound, kept⟩ := effect pool present
    cases presentAfter.symm.trans presentFound
    exact (kept unpaid).price sharesLeft
  cases step_cases ran with
  | registry sender call external run =>
      obtain ⟨registry, -, nextEq⟩ := callRegistry_ok call run
      subst nextEq
      exact paysOut (.ofSame rfl rfl)
  | module m sender call external run => exact paysOut (effects_paysOut (callModule_effects call run))
  | pool other sender call external run =>
      obtain ⟨before, tx, presentBefore, executed, nextEq⟩ := callPool_ok sender call run
      by_cases same : p = other
      · subst same
        cases present.symm.trans presentBefore
        have poolsEq : next.pools p = some tx.pool := by
          rw [nextEq, emitAll_eq]
          exact Function.update_self ..
        cases presentAfter.symm.trans poolsEq
        obtain ⟨notZero, -, notPool⟩ := Deployment.notExternal external
        have isPool : (w.pools p).isSome = true := by rw [present]; rfl
        have caller : CallerOk (w.poolEnv p sender) := by
          refine ⟨notZero, ?_, deployment.poolNotZero p isPool, deployment.cooldown⟩
          rintro (rfl : sender = p)
          rw [notPool] at isPool
          cases isPool
        have noPayment : ∀ recipient amount, call = .payClaim recipient amount → amount = 0 := by
          rintro recipient amount rfl
          have paid := (payClaim_poolPaid recipient amount run).paid
          omega
        have kept : PriceKept ⟨pool, w.erc20, []⟩ tx :=
          exec_priceKept caller call noPayment executed
        exact kept sharesLeft
      · obtain ⟨-, -, -, -, otherPools⟩ := callPool_frame sender call run
        refine paysOut (.ofSame (otherPools p same) ?_)
        rw [nextEq, claimsPaid_emitAll, if_neg (Ne.symm same)]
        rfl
  | tokens _ move erc20 erc1155 erc20Kept erc1155Kept nextEq =>
      subst nextEq
      exact paysOut (.ofSame rfl rfl)
  | moduleDeployed m run =>
      obtain ⟨-, nextEq⟩ := deployModule_ok run
      subst nextEq
      exact paysOut (.ofSame rfl rfl)
  | poolDeployed other asset run =>
      obtain ⟨external, -, -, nextEq⟩ := deployPool_ok other asset run
      have differ : p ≠ other := by
        rintro rfl
        have absent := external.2.2
        rw [present] at absent
        cases absent
      subst nextEq
      exact paysOut (.ofSame (Function.update_of_ne differ ..) rfl)
  | mined block later higher nextEq =>
      subst nextEq
      exact paysOut (.ofSame rfl rfl)

/-- In every step of every run in which the pool pays no claim, the shares it still has
are worth no less than before; and whatever settles an epoch gives it no more than the pool
has and than its shares are worth, or everything for the last shares. -/
theorem only_payouts_dilute {tx : Tx} {pool after : SingleAssetCoverPool}
    (reachable : Reachable platform w) (ran : step platform w tx = .ok next)
    (present : w.pools p = some pool) (presentAfter : next.pools p = some after) :
    (after.totalSupply ≠ 0 → claimsPaid next p = claimsPaid w p →
        (pool.totalAssets + 1) * (after.totalSupply + 1000) ≤
          (after.totalAssets + 1) * (pool.totalSupply + 1000)) ∧
      ∀ (before settled : SingleAssetCoverPool) (now exitEpoch : Nat) (event : Event),
        before.settleEpoch p now exitEpoch = .ok (settled, event) →
        let shares := (before.exitEpochs exitEpoch).totalShares
        let assets := (settled.exitEpochs exitEpoch).totalAssets
        assets ≤ before.accountedAssets ∧
          (shares ≠ before.totalSupply →
            assets * (before.totalSupply + 1000) ≤ shares * (before.totalAssets + 1)) ∧
          (shares = before.totalSupply → settled.totalAssets = 0 ∧ settled.totalSupply = 0) := by
  constructor
  · intro sharesLeft unpaid
    exact step_priceKept (reachable_deployment reachable) ran present presentAfter sharesLeft
      unpaid
  · intro before settled now exitEpoch event run
    obtain ⟨shares, assets, drawn, -⟩ := settleEpoch_drawn exitEpoch event run
    dsimp only
    rw [drawn.sharesEq, drawn.fixed]
    refine ⟨drawn.enough, ?_, ?_⟩
    · intro notWhole
      rw [drawn.partly notWhole]
      exact toAssetsDown_le shares
    · intro whole
      rw [drawn.left, drawn.burned, drawn.whole whole, whole]
      exact ⟨Nat.sub_self _, Nat.sub_self _⟩

/-- The first exit of the small deployment leaves 900 units of assets to 900000 shares. -/
theorem smallDeployment_exit_keeps_price :
    ∃ w next pool after, Reachable SmallDeployment.platform w ∧
      step SmallDeployment.platform w
        (.pool SmallDeployment.pool SmallDeployment.bob (.settleMaturedExitEpochs 5)) =
          .ok next ∧
      w.pools SmallDeployment.pool = some pool ∧ next.pools SmallDeployment.pool = some after ∧
      after.totalSupply = 900000 ∧
      (pool.totalAssets + 1) * (after.totalSupply + 1000) ≤
        (after.totalAssets + 1) * (pool.totalSupply + 1000) := by
  obtain ⟨steps, w, run, checked⟩ := SmallDeployment.reaches
    (SmallDeployment.stake ++ [.mine ⟨1002, 1814400, by decide, by decide⟩])
    (fun w => (w.pools SmallDeployment.pool).isSome &&
      match step SmallDeployment.platform w
          (.pool SmallDeployment.pool SmallDeployment.bob (.settleMaturedExitEpochs 5)) with
      | .ok next => (next.pools SmallDeployment.pool).any fun after =>
          after.totalSupply == 900000 &&
            claimsPaid next SmallDeployment.pool == claimsPaid w SmallDeployment.pool
      | .error _ => false)
    (by decide +kernel)
  simp only [Bool.and_eq_true] at checked
  obtain ⟨isPool, checked⟩ := checked
  obtain ⟨pool, present⟩ := Option.isSome_iff_exists.mp isPool
  split at checked
  next next ran =>
    obtain ⟨after, presentAfter, checked⟩ := (Option.any_eq_true _ _).mp checked
    simp only [Bool.and_eq_true, beq_iff_eq] at checked
    have kept := (only_payouts_dilute run.reachable ran present presentAfter).1
    refine ⟨w, next, pool, after, run.reachable, ran, present, presentAfter, checked.1, ?_⟩
    exact kept (by rw [checked.1]; decide) checked.2
  next => cases checked

end Runs

end Usd8Core.Pool
