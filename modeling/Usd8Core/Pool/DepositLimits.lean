import Usd8Core.Pool.SharePrice
import Usd8Core.Pool.UpdateArithmetic

/-!
# Limits of deposits

A unit of shares never costs more than a unit of assets, so whatever is bought within the
share headroom fits the word.  Where the limits translate between assets and shares, they
round so that the other conversion stays within them.
-/

set_option autoImplicit false

namespace Usd8Core.Pool

open Usd8Core.Lib.ByteWords
open Usd8Core.Lib.CheckedCall
open Usd8Core.Lib.TraceRun
open Usd8Core.Lib.VirtualShares
open Usd8Core.Chain
open Usd8Core.Insurance
open SingleAssetCoverPool (virtualShares maxDeposit maxMint)

/-! ## Pools stay below par -/

section Par

variable {pool next : SingleAssetCoverPool}

theorem EpochDrawn.belowPar {exitEpoch shares assets : Nat}
    (drawn : EpochDrawn pool next exitEpoch shares assets)
    (below : BelowPar priceOffset (vault pool)) : BelowPar priceOffset (vault next) := by
  have vaultEq : vault next =
      ⟨(vault pool).assets - assets, (vault pool).shares - shares⟩ :=
    Vault.ext drawn.left drawn.burned
  rw [vaultEq]
  by_cases whole : shares = pool.totalSupply
  · rw [drawn.whole whole, whole]
    simp [BelowPar, vault, priceOffset, virtualShares]
  · have partly := drawn.partly whole
    have enough := drawn.enough
    rw [partly] at enough ⊢
    exact below.redeem enough

theorem Draws.belowPar (draws : Draws pool next) (below : BelowPar priceOffset (vault pool)) :
    BelowPar priceOffset (vault next) := by
  induction draws with
  | refl => exact below
  | tail _ last ih =>
      obtain ⟨exitEpoch, shares, assets, drawn⟩ := last
      exact drawn.belowPar ih

/-- Nobody pays more units of assets than he gets units of shares. -/
theorem terms_belowPar (assets shares : Nat) (below : BelowPar priceOffset (vault pool))
    (terms : pool.previewDeposit assets = .ok shares ∨ pool.previewMint shares = .ok assets) :
    assets ≤ shares := by
  rcases terms with preview | preview
  · obtain ⟨-, -, rfl⟩ := (convertToSharesDown_ok_iff assets shares).mp preview
    exact below.le_toSharesDown assets
  · obtain ⟨-, -, rfl⟩ := (previewMint_ok_iff shares assets).mp preview
    exact below.toAssetsUp_le shares

theorem TotalsChange.belowPar {call : PoolCall} (change : TotalsChange call pool next)
    (below : BelowPar priceOffset (vault pool)) : BelowPar priceOffset (vault next) := by
  cases change with
  | sold assets shares terms totals =>
      rw [totals]
      exact below.issue (terms_belowPar assets shares below terms)
  | paid recipient amount called nonzero totals =>
      rw [totals]
      exact below.lose amount
  | drawn last draws totals =>
      rw [totals]
      exact draws.belowPar below

theorem belowPar_respected : Respected (fun _ => True) (fun pool next =>
    BelowPar priceOffset (vault pool) → BelowPar priceOffset (vault next)) where
  refl _ below := below
  trans _ _ _ first second below := second (first below)
  fromModule _ _ := trivial
  exec _ _ _ call _ ground run := (exec_totals ground.caller call run).belowPar

theorem run_belowPar {platform : Platform} {p : Address} {w : World}
    {steps : List (Transition World Tx)} (run : SystemRun platform steps w)
    (present : w.pools p = some pool) : BelowPar priceOffset (vault pool) := by
  apply run_pool ?_ ?_ run present
  · intro _ asset usd8
    simp [BelowPar, vault, priceOffset, virtualShares, SingleAssetCoverPool.initial,
      SingleAssetCoverPool.totalAssets]
  · intro earlier middle tx final before run presentBefore below last
    obtain ⟨after, presentAfter, kept⟩ :=
      step_relates belowPar_respected run.reachable presentBefore (fun _ _ _ => trivial) last
    exact ⟨after, presentAfter, kept below⟩

end Par

/-! ## What the limits guarantee -/

/-- The share headroom is translated into assets, or the room under the cap is worth no more
than the headroom. -/
def DepositTranslated (pool : SingleAssetCoverPool) : Prop :=
  pool.shareHeadroom ≤ (uintBound 256 - 1) / (pool.totalAssets + 1) ∨
    pool.depositCap ≠ 0 ∧
      toSharesDown priceOffset (vault pool) (pool.depositCap - pool.totalAssets) ≤
        pool.shareHeadroom

/-- There is no cap, or the shares of the room under it fit the word. -/
def MintTranslated (pool : SingleAssetCoverPool) : Prop :=
  pool.depositCap = 0 ∨
    toSharesDown priceOffset (vault pool) (pool.depositCap - pool.totalAssets) < uintBound 256

instance (pool : SingleAssetCoverPool) : Decidable (DepositTranslated pool) := by
  unfold DepositTranslated
  infer_instance

instance (pool : SingleAssetCoverPool) : Decidable (MintTranslated pool) := by
  unfold MintTranslated
  infer_instance

section Limits

variable {env : PoolEnv} {pool : SingleAssetCoverPool} {limit : Nat}

theorem headroom_lt : pool.shareHeadroom < uintBound 256 := by
  simp only [SingleAssetCoverPool.shareHeadroom, virtualShares, uintBound]
  omega

theorem headroom_room (sums : SumsFit pool) :
    pool.shareHeadroom + pool.totalSupply + virtualShares = uintBound 256 - 1 := by
  have supply := sums.1
  simp only [SingleAssetCoverPool.shareHeadroom, virtualShares, uintBound] at supply ⊢
  omega

/-- The translated headroom is less than the headroom. -/
theorem headroom_assets (below : BelowPar priceOffset (vault pool)) :
    toAssetsDown priceOffset (vault pool) pool.shareHeadroom < uintBound 256 := by
  have more : toAssetsDown priceOffset (vault pool) pool.shareHeadroom ≤
      toAssetsUp priceOffset (vault pool) pool.shareHeadroom := Nat.le_add_right _ _
  exact (more.trans (below.toAssetsUp_le _)).trans_lt headroom_lt

theorem ite_runs {α : Type} {condition : Prop} [Decidable condition] {first second : Call α}
    (yes : condition → ∃ value, first = .ok value)
    (no : ¬ condition → ∃ value, second = .ok value) :
    ∃ value, (if condition then first else second) = .ok value := by
  by_cases holds : condition
  · rw [if_pos holds]
    exact yes holds
  · rw [if_neg holds]
    exact no holds

theorem maxDeposit_runs (sums : SumsFit pool) (below : BelowPar priceOffset (vault pool)) :
    ∃ limit, maxDeposit env pool = .ok limit := by
  have size : (checkedAdd 256 pool.totalAssets 1 : Call Nat) = .ok (pool.totalAssets + 1) :=
    (checkedAdd_ok_iff _ _ _ _).mpr ⟨sums.2, rfl⟩
  have translated := (convertToAssetsDown_ok_iff pool.shareHeadroom _).mpr
    ⟨sums, headroom_assets below, rfl⟩
  unfold maxDeposit
  apply ite_runs (fun _ => ⟨_, rfl⟩)
  intro _
  apply ite_runs (fun _ => ⟨_, rfl⟩)
  intro _
  dsimp only
  rw [bind_after size]
  apply ite_runs (fun _ => ⟨_, rfl⟩)
  intro _
  rw [bind_after translated]
  exact ⟨_, rfl⟩

theorem maxDeposit_le (run : maxDeposit env pool = .ok limit) :
    (pool.depositCap ≠ 0 → limit ≤ pool.depositCap - pool.totalAssets) ∧
      (pool.shareHeadroom ≤ (uintBound 256 - 1) / (pool.totalAssets + 1) →
        limit ≤ toAssetsDown priceOffset (vault pool) pool.shareHeadroom) := by
  unfold maxDeposit at run
  rcases (ite_ok_iff _ _ _ _).mp run with ⟨-, run⟩ | ⟨-, run⟩
  · cases (pure_ok_iff _ _).mp run
    exact ⟨fun _ => Nat.zero_le _, fun _ => Nat.zero_le _⟩
  rcases (ite_ok_iff _ _ _ _).mp run with ⟨-, run⟩ | ⟨-, run⟩
  · cases (pure_ok_iff _ _).mp run
    exact ⟨fun _ => Nat.zero_le _, fun _ => Nat.zero_le _⟩
  obtain ⟨sizePlusOne, size, run⟩ := (bind_ok_iff _ _ _).mp run
  obtain ⟨-, rfl⟩ := (checkedAdd_ok_iff _ _ _ _).mp size
  rcases (ite_ok_iff _ _ _ _).mp run with ⟨skipped, run⟩ | ⟨-, run⟩
  · cases (pure_ok_iff _ _).mp run
    refine ⟨fun capped => ?_, fun translated => absurd skipped (Nat.not_lt.mpr translated)⟩
    rw [if_neg capped]
  · obtain ⟨byHeadroom, translated, run⟩ := (bind_ok_iff _ _ _).mp run
    obtain ⟨-, -, rfl⟩ := (convertToAssetsDown_ok_iff _ _).mp translated
    cases (pure_ok_iff _ _).mp run
    refine ⟨fun capped => ?_, fun _ => min_le_right _ _⟩
    rw [if_neg capped]
    exact min_le_left _ _

theorem maxMint_runs (sums : SumsFit pool) (translated : MintTranslated pool) :
    ∃ limit, maxMint env pool = .ok limit := by
  unfold maxMint
  apply ite_runs (fun _ => ⟨_, rfl⟩)
  intro _
  apply ite_runs (fun _ => ⟨_, rfl⟩)
  intro capped
  have room := (convertToSharesDown_ok_iff (pool.depositCap - pool.totalAssets) _).mpr
    ⟨sums, translated.resolve_left capped, rfl⟩
  apply ite_runs
  · intro _
    rw [bind_after room]
    exact ⟨_, rfl⟩
  · intro _
    exact ⟨_, rfl⟩

theorem maxMint_le (run : maxMint env pool = .ok limit) :
    limit ≤ pool.shareHeadroom ∧ (pool.depositCap ≠ 0 →
      limit ≤ toSharesDown priceOffset (vault pool) (pool.depositCap - pool.totalAssets)) := by
  unfold maxMint at run
  rcases (ite_ok_iff _ _ _ _).mp run with ⟨-, run⟩ | ⟨-, run⟩
  · cases (pure_ok_iff _ _).mp run
    exact ⟨Nat.zero_le _, fun _ => Nat.zero_le _⟩
  rcases (ite_ok_iff _ _ _ _).mp run with ⟨uncapped, run⟩ | ⟨-, run⟩
  · cases (pure_ok_iff _ _).mp run
    exact ⟨le_rfl, fun capped => absurd uncapped capped⟩
  rcases (ite_ok_iff _ _ _ _).mp run with ⟨-, run⟩ | ⟨-, run⟩
  · obtain ⟨shares, converted, run⟩ := (bind_ok_iff _ _ _).mp run
    obtain ⟨-, -, rfl⟩ := (convertToSharesDown_ok_iff _ _).mp converted
    cases (pure_ok_iff _ _).mp run
    exact ⟨min_le_left _ _, fun _ => min_le_right _ _⟩
  · cases (pure_ok_iff _ _).mp run
    exact ⟨Nat.zero_le _, fun _ => Nat.zero_le _⟩

/-- Whatever is within the limit of deposits buys shares within the headroom. -/
theorem previewDeposit_within {assets : Nat} (sums : SumsFit pool)
    (translated : DepositTranslated pool) (run : maxDeposit env pool = .ok limit)
    (within : assets ≤ limit) :
    ∃ shares, pool.previewDeposit assets = .ok shares ∧ shares ≤ pool.shareHeadroom := by
  obtain ⟨byCap, byHeadroom⟩ := maxDeposit_le run
  have bought : toSharesDown priceOffset (vault pool) assets ≤ pool.shareHeadroom := by
    rcases translated with fits | ⟨capped, fits⟩
    · exact toSharesDown_le_of_le (within.trans (byHeadroom fits))
    · exact (toSharesDown_mono (within.trans (byCap capped))).trans fits
  exact ⟨_, (convertToSharesDown_ok_iff _ _).mpr ⟨sums, bought.trans_lt headroom_lt, rfl⟩, bought⟩

/-- Whatever is within the limit of mints is paid for by fewer assets. -/
theorem previewMint_within {shares : Nat} (sums : SumsFit pool)
    (below : BelowPar priceOffset (vault pool)) (run : maxMint env pool = .ok limit)
    (within : shares ≤ limit) : ∃ assets, pool.previewMint shares = .ok assets := by
  have fits := (within.trans (maxMint_le run).1).trans_lt headroom_lt
  exact ⟨_, (previewMint_ok_iff _ _).mpr ⟨sums, (below.toAssetsUp_le shares).trans_lt fits, rfl⟩⟩

end Limits

/-! ## Deposits within the limits -/

section Calls

variable {env : PoolEnv} {tx next : PoolTx} {distributed : Nat}

/-- What a deposit may rely on. -/
structure DepositReady (env : PoolEnv) (distributed : Nat) (tx : PoolTx) : Prop where
  streamInWord : env.now + maxRewardsDuration < uintBound 64
  fits : distributed * rewardScale < uintBound 256
  move : MoveReady env.self env.now distributed tx.pool
  below : BelowPar priceOffset (vault tx.pool)
  senderNotPool : env.sender ≠ env.self

theorem DepositReady.sums (ready : DepositReady env distributed tx) : SumsFit tx.pool :=
  ⟨ready.move.funded.budget.supply, ready.below.trans_lt ready.move.funded.budget.supply⟩

theorem erc20Transfer_limit (ledger : Erc20) (token sender recipient : Address) (amount : Nat) :
    Avoids LimitError (erc20Transfer ledger token sender recipient amount) := by
  unfold erc20Transfer
  apply check_avoids (by simp [LimitError, IsPanic])
  intro _
  apply check_avoids (by simp [LimitError, IsPanic])
  intro _
  apply check_avoids (by simp [LimitError, IsPanic])
  intro _
  exact avoids_pure _

theorem depositShares_avoids (ready : DepositReady env distributed tx) (receiver : Address)
    {assets shares : Nat} (inside : shares ≤ tx.pool.shareHeadroom)
    (terms : tx.pool.previewDeposit assets = .ok shares ∨
      tx.pool.previewMint shares = .ok assets) :
    Avoids LimitError (PoolTx.depositShares env tx receiver assets shares) := by
  have below := ready.below
  have paid := terms_belowPar assets shares below terms
  have room := headroom_room ready.sums
  have belowWord : tx.pool.accountedAssets + 1 ≤ tx.pool.totalSupply + virtualShares := below
  unfold PoolTx.depositShares SingleAssetCoverPool.mintShares
  dsimp only
  apply avoids_revertIf_bind _ _ _ (fun exceeded => absurd exceeded (Nat.not_lt.mpr inside))
  intro _
  apply avoids_bind _ _ (erc20Transfer_limit _ _ _ _ _)
  intro erc20 transferred
  apply avoids_bind
  · apply check_avoids (by simp [LimitError, IsPanic])
    intro _
    apply update_avoids ready.streamInWord (by simp [LimitError, IsPanic]) ready.fits ready.move
    intro _
    omega
  intro pool mintRun
  obtain ⟨_, notZero, minted⟩ := (bind_ok_iff _ _ _).mp mintRun
  obtain ⟨-, acc, moved⟩ := update_erc20 _ pool _ _ _ _ _ minted
  obtain ⟨-, poolEq⟩ := erc20Update_mint _ pool _ _ _ ((revertIf_ok_iff _ _ _).mp notZero) moved
  have sameAsset : pool.asset = tx.pool.asset := by rw [poolEq]; rfl
  have sameAssets : pool.accountedAssets = tx.pool.accountedAssets := by rw [poolEq]; rfl
  apply avoids_bind
  · apply checkedSub_ordered
    rw [sameAsset]
    exact erc20Transfer_le _ _ _ _ _ _ transferred _ _ (Ne.symm ready.senderNotPool)
  intro received _
  apply check_avoids (by simp [LimitError, IsPanic])
  intro _
  apply avoids_bind
  · apply checkedAdd_fits
    rw [sameAssets]
    omega
  intro accounted _
  exact avoids_pure _

theorem deposit_avoids (ready : DepositReady env distributed tx)
    (translated : DepositTranslated tx.pool) (assets : Nat) (receiver : Address) :
    Avoids LimitError (PoolTx.deposit env tx assets receiver) := by
  unfold PoolTx.deposit requireNotPaused
  apply check_avoids (by simp [LimitError, IsPanic])
  intro _
  apply avoids_bind _ _ (ok_avoids (maxDeposit_runs ready.sums ready.below))
  intro limit limitRun
  apply check_avoids (by simp [LimitError, IsPanic])
  intro within
  obtain ⟨shares, preview, inside⟩ :=
    previewDeposit_within ready.sums translated limitRun (Nat.le_of_not_lt within)
  rw [bind_after preview]
  exact depositShares_avoids ready receiver inside (Or.inl preview)

theorem mint_avoids (ready : DepositReady env distributed tx)
    (translated : MintTranslated tx.pool) (shares : Nat) (receiver : Address) :
    Avoids LimitError (PoolTx.mint env tx shares receiver) := by
  unfold PoolTx.mint requireNotPaused
  apply check_avoids (by simp [LimitError, IsPanic])
  intro _
  apply avoids_bind _ _ (ok_avoids (maxMint_runs ready.sums translated))
  intro limit limitRun
  apply check_avoids (by simp [LimitError, IsPanic])
  intro within
  have inside := Nat.le_of_not_lt within
  obtain ⟨assets, preview⟩ := previewMint_within ready.sums ready.below limitRun inside
  rw [bind_after preview]
  exact depositShares_avoids ready receiver (inside.trans (maxMint_le limitRun).1) (Or.inr preview)

/-- What comes in stays under the cap. -/
theorem deposited_underCap {assets shares : Nat} (receiver : Address)
    (deposited : Deposited env tx next receiver assets shares)
    (within : tx.pool.depositCap ≠ 0 → assets ≤ tx.pool.depositCap - tx.pool.totalAssets) :
    tx.pool.depositCap = 0 ∨ next.pool.totalAssets ≤ tx.pool.depositCap ∨
      next.pool.totalAssets = tx.pool.totalAssets := by
  have total : next.pool.totalAssets = tx.pool.totalAssets + assets :=
    congrArg Vault.assets (deposited_totals receiver assets shares deposited)
  by_cases uncapped : tx.pool.depositCap = 0
  · exact Or.inl uncapped
  · have room := within uncapped
    by_cases nothing : assets = 0
    · exact Or.inr (Or.inr (by rw [total, nothing, Nat.add_zero]))
    · exact Or.inr (Or.inl (by omega))

theorem deposit_underCap (assets : Nat) (receiver : Address)
    (run : PoolTx.deposit env tx assets receiver = .ok next) :
    tx.pool.depositCap = 0 ∨ next.pool.totalAssets ≤ tx.pool.depositCap ∨
      next.pool.totalAssets = tx.pool.totalAssets := by
  unfold PoolTx.deposit at run
  obtain ⟨_, -, run⟩ := (bind_ok_iff _ _ _).mp run
  obtain ⟨limit, limitRun, run⟩ := (bind_ok_iff _ _ _).mp run
  obtain ⟨_, within, run⟩ := (bind_ok_iff _ _ _).mp run
  obtain ⟨shares, preview, run⟩ := (bind_ok_iff _ _ _).mp run
  have inside := Nat.le_of_not_lt ((revertIf_ok_iff _ _ _).mp within)
  apply deposited_underCap receiver
    (depositShares_ok env tx next receiver assets shares (Or.inl preview) run)
  intro capped
  exact inside.trans ((maxDeposit_le limitRun).1 capped)

theorem mint_underCap (shares : Nat) (receiver : Address)
    (run : PoolTx.mint env tx shares receiver = .ok next) :
    tx.pool.depositCap = 0 ∨ next.pool.totalAssets ≤ tx.pool.depositCap ∨
      next.pool.totalAssets = tx.pool.totalAssets := by
  unfold PoolTx.mint at run
  obtain ⟨_, -, run⟩ := (bind_ok_iff _ _ _).mp run
  obtain ⟨limit, limitRun, run⟩ := (bind_ok_iff _ _ _).mp run
  obtain ⟨_, within, run⟩ := (bind_ok_iff _ _ _).mp run
  obtain ⟨assets, preview, run⟩ := (bind_ok_iff _ _ _).mp run
  have inside := Nat.le_of_not_lt ((revertIf_ok_iff _ _ _).mp within)
  apply deposited_underCap receiver
    (depositShares_ok env tx next receiver assets shares (Or.inr preview) run)
  intro capped
  obtain ⟨-, -, rfl⟩ := (previewMint_ok_iff _ _).mp preview
  exact toAssetsUp_le_of_le (inside.trans ((maxMint_le limitRun).2 capped))

end Calls

/-! ## In a run of the system -/

section Runs

variable {platform : Platform} {p sender : Address} {w : World} {pool : SingleAssetCoverPool}
  {steps : List (Transition World Tx)}

theorem run_depositReady (run : SystemRun platform steps w) (present : w.pools p = some pool)
    (external : w.IsExternal sender) (streamInWord : w.now + maxRewardsDuration < uintBound 64)
    (fits : distributed p steps * rewardScale < uintBound 256) :
    DepositReady (w.poolEnv p sender) (distributed p steps) ⟨pool, w.erc20, []⟩ := by
  have inOrder := reachable_poolInOrder run.reachable present
  have caller := Deployment.externalCaller (reachable_deployment run.reachable) external present
  exact ⟨streamInWord, fits, ⟨inOrder.accounts.supply, inOrder.rewards, run_funded run present⟩,
    run_belowPar run present, caller.senderNotPool⟩

/-- In every reachable pool the limits can be asked for; where they are translated, whatever
is within them buys or costs what fits, and deposits and mints within them fail neither at the
headroom nor in arithmetic; whatever brings assets in ends under the cap. -/
theorem deposit_limits_sound (run : SystemRun platform steps w)
    (present : w.pools p = some pool) (external : w.IsExternal sender) :
    (∃ limit, maxDeposit (w.poolEnv p sender) pool = .ok limit ∧
        (DepositTranslated pool → ∀ assets ≤ limit, ∃ shares,
          pool.previewDeposit assets = .ok shares ∧ shares ≤ pool.shareHeadroom)) ∧
      (MintTranslated pool → ∃ limit, maxMint (w.poolEnv p sender) pool = .ok limit ∧
        ∀ shares ≤ limit, ∃ assets, pool.previewMint shares = .ok assets) ∧
      (w.now + maxRewardsDuration < uintBound 64 →
        distributed p steps * rewardScale < uintBound 256 →
          (DepositTranslated pool → ∀ assets receiver,
            Avoids LimitError (w.callPool p sender (.deposit assets receiver))) ∧
          (MintTranslated pool → ∀ shares receiver,
            Avoids LimitError (w.callPool p sender (.mint shares receiver)))) ∧
      ∀ amount receiver call next,
        call = .deposit amount receiver ∨ call = .mint amount receiver →
        w.callPool p sender call = .ok next →
          ∃ after, next.pools p = some after ∧
            (pool.depositCap = 0 ∨ after.totalAssets ≤ pool.depositCap ∨
              after.totalAssets = pool.totalAssets) := by
  have below := run_belowPar run present
  have supply := (run_funded run present).budget.supply
  have sums : SumsFit pool := ⟨supply, below.trans_lt supply⟩
  refine ⟨?_, ?_, ?_, ?_⟩
  · have runs : ∃ limit, maxDeposit (w.poolEnv p sender) pool = .ok limit :=
      maxDeposit_runs sums below
    obtain ⟨limit, limitRun⟩ := runs
    refine ⟨limit, limitRun, fun translated assets within => ?_⟩
    exact previewDeposit_within sums translated limitRun within
  · intro translated
    have runs : ∃ limit, maxMint (w.poolEnv p sender) pool = .ok limit :=
      maxMint_runs sums translated
    obtain ⟨limit, limitRun⟩ := runs
    exact ⟨limit, limitRun, fun shares within => previewMint_within sums below limitRun within⟩
  · intro streamInWord fits
    have ready := run_depositReady run present external streamInWord fits
    constructor
    · intro translated assets receiver
      apply callPool_avoids (by simp [LimitError, IsPanic])
      intro found foundPresent
      cases present.symm.trans foundPresent
      unfold PoolTx.exec
      apply check_avoids (by simp [LimitError, IsPanic])
      intro _
      exact deposit_avoids ready translated assets receiver
    · intro translated shares receiver
      apply callPool_avoids (by simp [LimitError, IsPanic])
      intro found foundPresent
      cases present.symm.trans foundPresent
      unfold PoolTx.exec
      apply check_avoids (by simp [LimitError, IsPanic])
      intro _
      exact mint_avoids ready translated shares receiver
  · intro amount receiver call next which called
    obtain ⟨before, tx, presentBefore, executed, nextEq⟩ := callPool_ok sender call called
    cases present.symm.trans presentBefore
    refine ⟨tx.pool, ?_, ?_⟩
    · rw [nextEq, emitAll_eq]
      exact Function.update_self ..
    · obtain ⟨_, -, executed⟩ := (bind_ok_iff _ _ _).mp executed
      rcases which with rfl | rfl
      · exact deposit_underCap amount receiver executed
      · exact mint_underCap amount receiver executed

end Runs

/-! ## Runs at the limits -/

namespace SampleLimits

open SmallDeployment

/-- One staker of 1000 units of the asset. -/
def staked : List Tx :=
  [.registry timelock (.setUsd8 usd8), .deployPool pool asset, .erc20Mint asset alice 2000,
    .pool pool alice (.deposit 1000 alice)]

/-- The most a stream of one year pays out. -/
def yearly : Nat := (2 ^ 128 - 1) * 31536000

/-- A year in which that is distributed. -/
def year (k : Nat) : List Tx :=
  [.erc20Mint usd8 alice yearly, .pool pool alice (.receiveProfitDistribution yearly),
    .mine ⟨(1001 + k) % uintBound 64, (1000000 + (k + 1) * 31536000) % uintBound 64,
      Nat.mod_lt _ (by decide), Nat.mod_lt _ (by decide)⟩]

/-- Eleven such years with a single share of one staker. -/
def elevenYears : List Tx :=
  [.registry timelock (.setUsd8 usd8), .deployPool pool asset, .erc20Mint asset alice 1000,
    .pool pool admin (.setDepositCap 5000), .pool pool alice (.mint 1 alice),
    .pool pool timelock (.setRewardsDuration 31536000)] ++ (List.range 11).flatMap year

/-- A stream without earning shares, at the end of all block times. -/
def endOfTime : List Tx :=
  staked ++ [.pool pool admin (.setDepositCap 5000), .erc20Mint usd8 alice 604800,
    .pool pool alice (.receiveProfitDistribution 604800),
    .pool pool alice (.requestRedeem 1000000),
    .mine (blockAt 1001 (uintBound 64 - 1))]

/-- The pool takes deposits. -/
def TakesDeposits (w : World) : Prop :=
  w.registry.paused pool = false ∧ w.payoutIncidentActive = false

instance (w : World) : Decidable (TakesDeposits w) := by
  unfold TakesDeposits
  infer_instance

def overflows {α : Type} : Call α → Bool
  | .error (.panic .overflow) => true
  | _ => false

theorem overflows_eq {α : Type} {call : Call α} (overflow : overflows call = true) :
    call = .error (.panic .overflow) := by
  unfold overflows at overflow
  split at overflow
  · rfl
  · cases overflow

theorem toOption_eq {α : Type} {call : Call α} {value : α} (returned : call.toOption = some value) :
    call = .ok value := by
  cases call with
  | error error => cases returned
  | ok result =>
      cases returned
      rfl

theorem reaches (actions : List Tx) (check : World → SingleAssetCoverPool → Bool)
    (passed : endsIn (step SmallDeployment.platform) start actions
      (fun _ w => decide (TakesDeposits w) && (w.pools pool).any (check w)) = true) :
    ∃ w found, Reachable SmallDeployment.platform w ∧ w.pools pool = some found ∧
      TakesDeposits w ∧ check w found = true := by
  obtain ⟨steps, w, run, checked⟩ := endsIn_isRun actions _ passed
  rw [Bool.and_eq_true, decide_eq_true_eq] at checked
  obtain ⟨found, present, holds⟩ := (Option.any_eq_true _ _).mp checked.2
  exact ⟨w, found, ⟨steps, _, _, _, _, _, run⟩, present, checked.1, holds⟩

end SampleLimits

open SmallDeployment SampleLimits in
/-- An uncapped pool offers a deposit whose shares overflow; a pool over its cap accepts a
deposit of nothing; the room under the largest cap cannot be translated; and where the limits
are translated, a deposit fails once eleven years of the highest rate were distributed, or at
the end of all block times. -/
theorem smallDeployment_limits_fail :
    (∃ w found, Reachable SmallDeployment.platform w ∧ w.pools pool = some found ∧
      TakesDeposits w ∧
      maxDeposit (w.poolEnv pool alice) found = .ok (uintBound 256 - 1) ∧
      found.previewDeposit (uintBound 256 - 1) = .error (.panic .overflow)) ∧
    (∃ w next found after, Reachable SmallDeployment.platform w ∧ w.pools pool = some found ∧
      TakesDeposits w ∧ w.callPool pool alice (.deposit 0 alice) = .ok next ∧
      next.pools pool = some after ∧ after.depositCap = 100 ∧ after.totalAssets = 1000) ∧
    (∃ w found, Reachable SmallDeployment.platform w ∧ w.pools pool = some found ∧
      TakesDeposits w ∧
      maxMint (w.poolEnv pool alice) found = .error (.panic .overflow) ∧
      w.callPool pool alice (.mint 1 alice) = .error (.panic .overflow)) ∧
    (∃ w found, Reachable SmallDeployment.platform w ∧ w.pools pool = some found ∧
      TakesDeposits w ∧ DepositTranslated found ∧
      w.now + maxRewardsDuration < uintBound 64 ∧
      w.callPool pool alice (.deposit 10 alice) = .error (.panic .overflow)) ∧
    ∃ w found steps, SystemRun SmallDeployment.platform steps w ∧ w.pools pool = some found ∧
      TakesDeposits w ∧ DepositTranslated found ∧
      distributed pool steps * rewardScale < uintBound 256 ∧
      w.callPool pool alice (.deposit 10 alice) = .error (.panic .overflow) := by
  refine ⟨?_, ?_, ?_, ?_, ?_⟩
  · obtain ⟨w, found, reachable, present, takes, checked⟩ := reaches staked
      (fun w found => decide ((maxDeposit (w.poolEnv pool alice) found).toOption =
          some (uintBound 256 - 1)) && overflows (found.previewDeposit (uintBound 256 - 1)))
      (by decide +kernel)
    rw [Bool.and_eq_true, decide_eq_true_eq] at checked
    exact ⟨w, found, reachable, present, takes, toOption_eq checked.1, overflows_eq checked.2⟩
  · obtain ⟨w, found, reachable, present, takes, checked⟩ := reaches
      (staked ++ [.pool pool admin (.setDepositCap 100)])
      (fun w _ => (w.callPool pool alice (.deposit 0 alice)).toOption.any fun next =>
        (next.pools pool).any fun after =>
          decide (after.depositCap = 100 ∧ after.totalAssets = 1000))
      (by decide +kernel)
    obtain ⟨next, called, checked⟩ := (Option.any_eq_true _ _).mp checked
    obtain ⟨after, presentAfter, checked⟩ := (Option.any_eq_true _ _).mp checked
    exact ⟨w, next, found, after, reachable, present, takes, toOption_eq called, presentAfter,
      of_decide_eq_true checked⟩
  · obtain ⟨w, found, reachable, present, takes, checked⟩ := reaches
      (staked ++ [.pool pool admin (.setDepositCap (uintBound 256 - 1))])
      (fun w found => overflows (maxMint (w.poolEnv pool alice) found) &&
        overflows (w.callPool pool alice (.mint 1 alice)))
      (by decide +kernel)
    rw [Bool.and_eq_true] at checked
    exact ⟨w, found, reachable, present, takes, overflows_eq checked.1, overflows_eq checked.2⟩
  · obtain ⟨w, found, reachable, present, takes, checked⟩ := reaches elevenYears
      (fun w found => decide (DepositTranslated found) &&
        decide (w.now + maxRewardsDuration < uintBound 64) &&
        overflows (w.callPool pool alice (.deposit 10 alice)))
      (by decide +kernel)
    rw [Bool.and_eq_true, Bool.and_eq_true, decide_eq_true_eq, decide_eq_true_eq] at checked
    exact ⟨w, found, reachable, present, takes, checked.1.1, checked.1.2, overflows_eq checked.2⟩
  · have passed : endsIn (step SmallDeployment.platform) start endOfTime
        (fun steps w => decide (TakesDeposits w) &&
          decide (distributed pool steps * rewardScale < uintBound 256) &&
          overflows (w.callPool pool alice (.deposit 10 alice)) &&
          (w.pools pool).any fun found => decide (DepositTranslated found)) = true := by
      decide +kernel
    obtain ⟨steps, w, run, checked⟩ := endsIn_isRun _ _ passed
    simp only [Bool.and_eq_true, decide_eq_true_eq] at checked
    obtain ⟨⟨⟨takes, fits⟩, overflow⟩, checked⟩ := checked
    obtain ⟨found, present, translated⟩ := (Option.any_eq_true _ _).mp checked
    exact ⟨w, found, steps, ⟨_, _, _, _, _, run⟩, present, takes, of_decide_eq_true translated,
      fits, overflows_eq overflow⟩

open SmallDeployment SampleLimits in
/-- Under a cap of 5000 both limits are translated, and 4000 units may come in. -/
theorem smallDeployment_limits_sound :
    ∃ (w : World) (found : SingleAssetCoverPool) (limit : Nat) (next : World)
      (after : SingleAssetCoverPool), w.pools pool = some found ∧ found.depositCap = 5000 ∧
      DepositTranslated found ∧ MintTranslated found ∧
      maxDeposit (w.poolEnv pool alice) found = .ok limit ∧
      (∃ shares, found.previewDeposit limit = .ok shares ∧ shares ≤ found.shareHeadroom) ∧
      (∃ shares, maxMint (w.poolEnv pool alice) found = .ok shares ∧
        ∃ assets, found.previewMint shares = .ok assets) ∧
      Avoids LimitError (w.callPool pool alice (.deposit 4000 alice)) ∧
      Avoids LimitError (w.callPool pool alice (.mint 4000000 alice)) ∧
      w.callPool pool alice (.deposit 10 alice) = .ok next ∧
      next.pools pool = some after ∧
      (found.depositCap = 0 ∨ after.totalAssets ≤ found.depositCap ∨
        after.totalAssets = found.totalAssets) := by
  have passed : endsIn (step SmallDeployment.platform) start
      (staked ++ [.pool pool admin (.setDepositCap 5000)])
      (fun steps w => decide (w.IsExternal alice) &&
        decide (w.now + maxRewardsDuration < uintBound 64) &&
        decide (distributed pool steps * rewardScale < uintBound 256) &&
        (w.callPool pool alice (.deposit 10 alice)).toOption.isSome &&
        (w.pools pool).any fun found => decide (found.depositCap = 5000 ∧
          DepositTranslated found ∧ MintTranslated found)) = true := by
    decide +kernel
  obtain ⟨steps, w, run, checked⟩ := endsIn_isRun _ _ passed
  simp only [Bool.and_eq_true, decide_eq_true_eq] at checked
  obtain ⟨⟨⟨⟨external, inTime⟩, fits⟩, isOk⟩, checked⟩ := checked
  obtain ⟨found, present, settings⟩ := (Option.any_eq_true _ _).mp checked
  obtain ⟨cap, deposits, mints⟩ := of_decide_eq_true settings
  obtain ⟨next, called⟩ := Option.isSome_iff_exists.mp isOk
  obtain ⟨⟨limit, limitRun, within⟩, minting, calls, capped⟩ :=
    deposit_limits_sound ⟨_, _, _, _, _, run⟩ present external
  obtain ⟨shares, sharesRun, costs⟩ := minting mints
  obtain ⟨depositing, mintingCalls⟩ := calls inTime fits
  obtain ⟨after, presentAfter, under⟩ :=
    capped 10 alice _ next (Or.inl rfl) (toOption_eq called)
  exact ⟨w, found, limit, next, after, present, cap, deposits, mints, limitRun,
    within deposits limit le_rfl, ⟨shares, sharesRun, costs shares le_rfl⟩,
    depositing deposits 4000 alice, mintingCalls mints 4000000 alice, toOption_eq called,
    presentAfter, under⟩

end Usd8Core.Pool
