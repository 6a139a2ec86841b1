import Usd8Core.Treasury.Backing

/-!
# The calls of the Treasury

Issuing and redeeming keep a covered supply covered and never lower the reserve per
USD8 of a short one, so the check around them never fires; the other operations
lose nothing.
-/

set_option autoImplicit false

namespace Usd8Core.Treasury

open Usd8Core.Lib.ByteWords
open Usd8Core.Lib.CheckedCall
open Usd8Core.Lib.FiniteLedger
open Usd8Core.Lib.ProRata
open Usd8Core.Lib.TraceRun
open Usd8Core.Chain

namespace TreasuryState

variable {σ : Type} {contracts : ExternalContracts σ} {self : Address}

/-- The USDC that redemptions have paid so far. -/
def redeemedUsdc : TreasuryEvent → Nat
  | .redeemed _ _ usdcAmount => usdcAmount
  | _ => 0

def totalPaid (t : TreasuryState σ) : Nat := (t.events.map redeemedUsdc).sum

/-! ## Issuing and redeeming -/

section Operations

variable {t next : TreasuryState σ} {sender : Address}

structure Minted (contracts : ExternalContracts σ) (treasury : Address) (t next : TreasuryState σ)
    (usdcAmount : Nat) : Prop where
  strategies : next.strategies = t.strategies
  supply : next.usd8.totalSupply = t.usd8.totalSupply + usdcAmount * usdcToUsd8Scale
  reserve : ∀ reserve, t.IsReserve contracts treasury reserve →
    next.IsReserve contracts treasury (reserve + usdcAmount)

theorem mint_supply {usd8 after : Usd8} {account : Address} {value : Nat}
    (run : usd8.mint account value = .ok after) :
    after.totalSupply = usd8.totalSupply + value := by
  unfold Usd8.mint at run
  split at run
  next => cases run
  next =>
    split at run
    next =>
      cases run
      rfl
    next => cases run

theorem burn_supply {usd8 after : Usd8} {account : Address} {value : Nat}
    (run : usd8.burn account value = .ok after) :
    value ≤ usd8.totalSupply ∧ after.totalSupply = usd8.totalSupply - value := by
  unfold Usd8.burn at run
  split at run
  next => cases run
  next =>
    split at run
    next enough =>
      cases run
      exact ⟨enough.trans (usd8.balance_le account), rfl⟩
    next => cases run

theorem transfer_supply {usd8 after : Usd8} {payer payee : Address} {value : Nat}
    (run : usd8.transfer payer payee value = .ok after) :
    after.totalSupply = usd8.totalSupply := by
  unfold Usd8.transfer at run
  split at run
  next => cases run
  next =>
    split at run
    next =>
      cases run
      rfl
    next => cases run

theorem mintBody_ok (preserving : ValuePreserving contracts self) (usdcAmount : Nat)
    (external : t.External self sender)
    (run : mintBody contracts self sender usdcAmount t = .ok next) :
    Minted contracts self t next usdcAmount := by
  obtain ⟨_, -, run⟩ := (bind_ok_iff _ _ _).mp run
  obtain ⟨credited, collected, run⟩ := (bind_ok_iff _ _ _).mp run
  obtain ⟨usd8Amount, scaled, run⟩ := (bind_ok_iff _ _ _).mp run
  obtain ⟨_, -, run⟩ := (bind_ok_iff _ _ _).mp run
  obtain ⟨usd8, minted, result⟩ := (bind_ok_iff _ _ _).mp run
  obtain ⟨-, amountEq⟩ := (checkedMul_ok_iff _ _ _ _).mp scaled
  cases (pure_ok_iff _ _).mp result
  obtain ⟨balance, kept⟩ :=
    preserving.collected external.1 ((orRevert_ok_iff _ _ _).mp collected)
  refine ⟨rfl, (mint_supply minted).trans (by rw [amountEq]), ?_⟩
  intro reserve holds
  obtain ⟨rest, reserveEq, after⟩ := Holds.idle holds
    (fun strategy member => kept strategy (by rintro rfl; exact external.2 member))
  have sameReserve : contracts.usdcBalance credited self + rest = reserve + usdcAmount := by omega
  rw [sameReserve] at after
  exact after

/-- What the quote is made of. -/
theorem redeemQuote_ok (usd8Amount quote : Nat)
    (run : t.redeemQuote contracts self usd8Amount = .ok quote) :
    ∃ reserve, t.getReserveBalance contracts self = .ok reserve ∧
      t.usd8.totalSupply ≠ 0 ∧ reserve * usdcToUsd8Scale < uintBound 256 ∧
      quote = payout usdcToUsd8Scale reserve t.usd8.totalSupply usd8Amount := by
  obtain ⟨_, nonzero, run⟩ := (bind_ok_iff _ _ _).mp run
  obtain ⟨reserve, valued, run⟩ := (bind_ok_iff _ _ _).mp run
  obtain ⟨reserveInUsd8, scaled, run⟩ := (bind_ok_iff _ _ _).mp run
  obtain ⟨divided, divRun, result⟩ := (bind_ok_iff _ _ _).mp run
  obtain ⟨fits, scaledEq⟩ := (checkedMul_ok_iff _ _ _ _).mp scaled
  obtain ⟨-, -, dividedEq⟩ := (mulDiv_ok_iff _ _ _ _).mp divRun
  refine ⟨reserve, valued, (revertIf_ok_iff _ _ _).mp nonzero, fits, ?_⟩
  have effective : (if reserveInUsd8 < t.usd8.totalSupply then reserveInUsd8
      else t.usd8.totalSupply) = min (reserve * usdcToUsd8Scale) t.usd8.totalSupply := by
    rw [scaledEq]
    split <;> omega
  rw [← (pure_ok_iff _ _).mp result, dividedEq, effective]
  rfl

/-- An amount within the supply is always quoted where some amount was. -/
theorem redeemQuote_total (reserve usd8Amount : Nat)
    (valued : t.getReserveBalance contracts self = .ok reserve)
    (nonzero : t.usd8.totalSupply ≠ 0) (fits : reserve * usdcToUsd8Scale < uintBound 256)
    (inside : usd8Amount ≤ t.usd8.totalSupply) :
    t.redeemQuote contracts self usd8Amount =
      .ok (payout usdcToUsd8Scale reserve t.usd8.totalSupply usd8Amount) := by
  have effective : (if reserve * usdcToUsd8Scale < t.usd8.totalSupply then
      reserve * usdcToUsd8Scale else t.usd8.totalSupply) =
        min (reserve * usdcToUsd8Scale) t.usd8.totalSupply := by
    split <;> omega
  have quotientFits : usd8Amount * min (reserve * usdcToUsd8Scale) t.usd8.totalSupply /
      t.usd8.totalSupply < uintBound 256 := by
    have capped : usd8Amount * min (reserve * usdcToUsd8Scale) t.usd8.totalSupply /
        t.usd8.totalSupply ≤ t.usd8.totalSupply := by
      apply Nat.div_le_of_le_mul
      exact Nat.mul_le_mul inside (Nat.min_le_right _ _)
    exact lt_of_le_of_lt capped t.usd8.fits
  have supplyPass : (revertIf (t.usd8.totalSupply = 0) TreasuryError.noUsd8Supply) = .ok () :=
    (revertIf_ok_iff _ _ _).mpr nonzero
  have scalePass : (checkedMul 256 reserve usdcToUsd8Scale : TreasuryCall Nat) =
      .ok (reserve * usdcToUsd8Scale) := (checkedMul_ok_iff _ _ _ _).mpr ⟨fits, rfl⟩
  have dividePass : (mulDiv usd8Amount (min (reserve * usdcToUsd8Scale) t.usd8.totalSupply)
      t.usd8.totalSupply : TreasuryCall Nat) = .ok _ :=
    (mulDiv_ok_iff _ _ _ _).mpr ⟨nonzero, quotientFits, rfl⟩
  unfold redeemQuote
  refine (bind_ok_iff _ _ _).mpr ⟨(), supplyPass, ?_⟩
  refine (bind_ok_iff _ _ _).mpr ⟨reserve, valued, ?_⟩
  refine (bind_ok_iff _ _ _).mpr ⟨_, scalePass, ?_⟩
  rw [effective]
  exact (bind_ok_iff _ _ _).mpr ⟨_, dividePass, rfl⟩

structure Redeemed (contracts : ExternalContracts σ) (treasury : Address) (t next : TreasuryState σ)
    (usd8Amount paid reserve : Nat) : Prop where
  strategies : next.strategies = t.strategies
  inside : usd8Amount ≤ t.usd8.totalSupply
  supply : next.usd8.totalSupply = t.usd8.totalSupply - usd8Amount
  valued : t.getReserveBalance contracts treasury = .ok reserve
  nonzero : t.usd8.totalSupply ≠ 0
  fits : reserve * usdcToUsd8Scale < uintBound 256
  paidEq : paid = payout usdcToUsd8Scale reserve t.usd8.totalSupply usd8Amount
  reserveAfter : next.IsReserve contracts treasury (reserve - paid)
  totalPaid : next.totalPaid = t.totalPaid + paid

theorem redeemBody_ok (preserving : ValuePreserving contracts self)
    (usd8Amount minUsdcOut : Nat) (external : t.External self sender)
    (run : redeemBody contracts self sender usd8Amount minUsdcOut t = .ok next) :
    ∃ paid reserve, Redeemed contracts self t next usd8Amount paid reserve := by
  obtain ⟨_, -, run⟩ := (bind_ok_iff _ _ _).mp run
  obtain ⟨paid, quoted, run⟩ := (bind_ok_iff _ _ _).mp run
  obtain ⟨_, -, run⟩ := (bind_ok_iff _ _ _).mp run
  obtain ⟨_, -, run⟩ := (bind_ok_iff _ _ _).mp run
  obtain ⟨usd8, burned, run⟩ := (bind_ok_iff _ _ _).mp run
  obtain ⟨pulled, idleRun, run⟩ := (bind_ok_iff _ _ _).mp run
  obtain ⟨after, transferred, result⟩ := (bind_ok_iff _ _ _).mp run
  obtain ⟨inside, supplyEq⟩ := burn_supply burned
  obtain ⟨reserve, valued, nonzero, fits, paidEq⟩ := redeemQuote_ok usd8Amount paid quoted
  have before := getReserveBalance_isReserve valued
  have held := ensureIdleUsdc_holds preserving paid t.distinct t.strategies (List.Subset.refl _)
    before idleRun
  obtain ⟨balance, kept⟩ :=
    preserving.paid external.1 ((orRevert_ok_iff _ _ _).mp transferred)
  obtain ⟨rest, reserveEq, reserveAfter⟩ := held.idle
    (fun strategy member => kept strategy (by rintro rfl; exact external.2 member))
  cases (pure_ok_iff _ _).mp result
  refine ⟨paid, reserve, rfl, inside, supplyEq, valued, nonzero, fits, paidEq, ?_, ?_⟩
  · have sameReserve : contracts.usdcBalance after self + rest = reserve - paid := by omega
    rw [sameReserve] at reserveAfter
    exact reserveAfter
  · simp [TreasuryState.totalPaid, emit, redeemedUsdc]

/-! ## The check around them -/

/-- The reserve and the supply after an operation are no worse than before it. -/
structure NotWorse (reserve supply reserveAfter supplyAfter : Nat) : Prop where
  surplus : supply ≤ reserve * usdcToUsd8Scale →
    supplyAfter + (reserve * usdcToUsd8Scale - supply) ≤ reserveAfter * usdcToUsd8Scale
  ratio : reserve * usdcToUsd8Scale < supply →
    reserve * supplyAfter ≤ reserveAfter * supply

def IsWorsened : TreasuryError → Prop
  | .reserveSupplyStatusWorsened _ _ _ _ => True
  | _ => False

theorem checkStatus_avoids {reserve supply reserveAfter supplyAfter : Nat}
    (notWorse : NotWorse reserve supply reserveAfter supplyAfter) :
    Avoids IsWorsened (checkStatus reserve supply reserveAfter supplyAfter) := by
  unfold checkStatus
  refine avoids_bind _ _ (avoids_checkedMul _ _ _ id) ?_
  intro reserveBeforeInUsd8 scaledBefore
  refine avoids_bind _ _ (avoids_checkedMul _ _ _ id) ?_
  intro reserveAfterInUsd8 scaledAfter
  obtain ⟨-, beforeEq⟩ := (checkedMul_ok_iff _ _ _ _).mp scaledBefore
  obtain ⟨-, afterEq⟩ := (checkedMul_ok_iff _ _ _ _).mp scaledAfter
  dsimp only
  split
  next covered =>
    rw [beforeEq] at covered
    refine avoids_bind _ _ (avoids_checkedSub _ _ (fun _ => id)) ?_
    intro surplusBefore subtracted
    refine avoids_bind _ _ (avoids_checkedAdd _ _ _ id) ?_
    intro tolerated toleratedRun
    refine avoids_bind _ _ (avoids_checkedAdd _ _ _ id) ?_
    intro expected expectedRun
    obtain ⟨-, surplusEq⟩ := (checkedSub_ok_iff _ _ _).mp subtracted
    obtain ⟨-, toleratedEq⟩ := (checkedAdd_ok_iff _ _ _ _).mp toleratedRun
    obtain ⟨-, expectedEq⟩ := (checkedAdd_ok_iff _ _ _ _).mp expectedRun
    have kept := notWorse.surplus covered
    apply avoids_revertIf
    intro worse
    exact absurd worse (by omega)
  next short =>
    rw [beforeEq] at short
    refine avoids_bind _ _ (avoids_checkedAdd _ _ _ id) ?_
    intro tolerated toleratedRun
    obtain ⟨-, toleratedEq⟩ := (checkedAdd_ok_iff _ _ _ _).mp toleratedRun
    have kept := notWorse.ratio (Nat.lt_of_not_le short)
    apply avoids_revertIf
    intro worse
    have below := (mul512_lt_iff _ _ _ _).mp worse
    have above : reserveBeforeInUsd8 * supplyAfter ≤ tolerated * supply := by
      calc reserveBeforeInUsd8 * supplyAfter
          = reserve * supplyAfter * usdcToUsd8Scale := by rw [beforeEq]; ring
        _ ≤ reserveAfter * supply * usdcToUsd8Scale := Nat.mul_le_mul_right _ kept
        _ = reserveAfterInUsd8 * supply := by rw [afterEq]; ring
        _ ≤ tolerated * supply := Nat.mul_le_mul_right _ (by omega)
    exact absurd below (Nat.not_lt.mpr above)

theorem minted_notWorse {reserve : Nat} (usdcAmount : Nat)
    (minted : Minted contracts self t next usdcAmount) :
    NotWorse reserve t.usd8.totalSupply (reserve + usdcAmount) next.usd8.totalSupply := by
  rw [minted.supply]
  refine ⟨fun covered => ?_, fun short => ratio_issued usdcAmount short.le⟩
  rw [Nat.add_mul]
  omega

theorem redeemed_notWorse {usd8Amount paid reserve : Nat}
    (redeemed : Redeemed contracts self t next usd8Amount paid reserve) :
    NotWorse reserve t.usd8.totalSupply (reserve - paid) next.usd8.totalSupply := by
  have inside := redeemed.inside
  rw [redeemed.supply, redeemed.paidEq]
  refine ⟨fun covered => ?_, fun _ => ratio_after usdcToUsd8Scale_pos⟩
  have par : payout usdcToUsd8Scale reserve t.usd8.totalSupply usd8Amount * usdcToUsd8Scale ≤
      usd8Amount := payout_le_par
  rw [Nat.sub_mul]
  omega

/-- A call of the modifier that went through ran its body. -/
theorem statusCheck_ok (body : TreasuryState σ → TreasuryCall (TreasuryState σ))
    (run : t.reserveSupplyStatusCheck contracts self body = .ok next) : body t = .ok next := by
  obtain ⟨_, -, run⟩ := (bind_ok_iff _ _ _).mp run
  obtain ⟨reserve, -, run⟩ := (bind_ok_iff _ _ _).mp run
  obtain ⟨final, bodyRun, run⟩ := (bind_ok_iff _ _ _).mp run
  obtain ⟨_, -, run⟩ := (bind_ok_iff _ _ _).mp run
  obtain ⟨_, -, result⟩ := (bind_ok_iff _ _ _).mp run
  rw [← (pure_ok_iff _ _).mp result]
  exact bodyRun

end Operations

/-! ## Issuing and redeeming never worsen the status -/

section Errors

variable {t : TreasuryState σ} {sender : Address}

theorem reserveLoop_avoids {bad : TreasuryError → Prop}
    (foreign : ∀ account, ¬ bad (.external account)) (overflow : ¬ bad (.panic .overflow))
    (external : σ) (strategies : List Address) (total : Nat) :
    Avoids bad (reserveLoop contracts external strategies total) := by
  induction strategies generalizing total with
  | nil => exact avoids_pure total
  | cons strategy later ih =>
      refine avoids_bind _ _ (avoids_orRevert _ _ (fun _ => foreign _)) ?_
      intro value _
      refine avoids_bind _ _ (avoids_checkedAdd _ _ _ overflow) ?_
      intro next _
      exact ih next

theorem ofRegistry_avoids {bad : TreasuryError → Prop} (harmless : ∀ error, ¬ bad (.registry error))
    {α : Type} (call : Call α) : Avoids bad (ofRegistry call) := by
  cases call with
  | ok value => exact avoids_ok value
  | error error => exact avoids_error _ (harmless error)

theorem usd8_mint_avoids {bad : TreasuryError → Prop}
    (receiver : ∀ account, ¬ bad (.erc20InvalidReceiver account))
    (overflow : ¬ bad (.panic .overflow)) (usd8 : Usd8) (account : Address) (value : Nat) :
    Avoids bad (usd8.mint account value) := by
  unfold Usd8.mint
  split
  · exact avoids_error _ (receiver account)
  · split
    · exact avoids_ok _
    · exact avoids_error _ overflow

theorem usd8_burn_avoids (usd8 : Usd8) (account : Address) (value : Nat) :
    Avoids IsWorsened (usd8.burn account value) := by
  unfold Usd8.burn
  split
  · exact avoids_error _ id
  · split
    · exact avoids_ok _
    · exact avoids_error _ id

theorem mintBody_avoids (usdcAmount : Nat) :
    Avoids IsWorsened (mintBody contracts self sender usdcAmount t) := by
  refine avoids_revertIf_bind _ _ _ (fun _ => id) fun _ => ?_
  refine avoids_bind _ _ (avoids_orRevert _ _ (fun _ => id)) ?_
  intro external _
  refine avoids_bind _ _ (avoids_checkedMul _ _ _ id) ?_
  intro usd8Amount _
  refine avoids_bind _ _ (avoids_revertIf _ _ (fun _ => id)) ?_
  intro _ _
  refine avoids_bind _ _ (usd8_mint_avoids (fun _ => id) id _ _ _) ?_
  intro usd8 _
  exact avoids_pure _

theorem ensureIdleUsdc_avoids (amount : Nat) (queue : List Address) (external : σ) :
    Avoids IsWorsened (ensureIdleUsdc contracts self amount queue external) := by
  induction queue generalizing external with
  | nil =>
      refine avoids_revertIf_bind _ _ _ (fun _ => id) fun _ => ?_
      exact avoids_pure external
  | cons strategy later ih =>
      rw [ensureIdleUsdc]
      refine avoids_ite _ _ _ (fun _ => avoids_pure external) fun _ => ?_
      refine avoids_bind _ _ (avoids_checkedSub _ _ (fun _ => id)) ?_
      intro needed _
      refine avoids_bind _ _ (avoids_orRevert _ _ (fun _ => id)) ?_
      intro available _
      refine avoids_ite _ _ _ (fun _ => ih external) fun _ => ?_
      dsimp only
      split
      · exact ih _
      · exact ih external

theorem redeemQuote_avoids (usd8Amount : Nat) :
    Avoids IsWorsened (t.redeemQuote contracts self usd8Amount) := by
  refine avoids_revertIf_bind _ _ _ (fun _ => id) fun _ => ?_
  refine avoids_bind _ _ (reserveLoop_avoids (fun _ => id) id _ _ _) ?_
  intro reserve _
  refine avoids_bind _ _ (avoids_checkedMul _ _ _ id) ?_
  intro reserveInUsd8 _
  refine avoids_bind _ _ (avoids_mulDiv _ _ _ (fun _ => id) id) ?_
  intro scaled _
  exact avoids_pure _

theorem redeemBody_avoids (usd8Amount minUsdcOut : Nat) :
    Avoids IsWorsened (redeemBody contracts self sender usd8Amount minUsdcOut t) := by
  refine avoids_revertIf_bind _ _ _ (fun _ => id) fun _ => ?_
  refine avoids_bind _ _ (redeemQuote_avoids usd8Amount) ?_
  intro usdcAmount _
  refine avoids_revertIf_bind _ _ _ (fun _ => id) fun _ => ?_
  refine avoids_bind _ _ (avoids_revertIf _ _ (fun _ => id)) ?_
  intro _ _
  refine avoids_bind _ _ (usd8_burn_avoids _ _ _) ?_
  intro usd8 _
  refine avoids_bind _ _ (ensureIdleUsdc_avoids _ _ _) ?_
  intro external _
  refine avoids_bind _ _ (avoids_orRevert _ _ (fun _ => id)) ?_
  intro external _
  exact avoids_pure _

/-- The check stays silent around a body that leaves the status no worse. -/
theorem statusCheck_avoids (body : TreasuryState σ → TreasuryCall (TreasuryState σ))
    (bodyAvoids : Avoids IsWorsened (body t))
    (kept : ∀ next reserve reserveAfter, body t = .ok next →
      t.IsReserve contracts self reserve → next.IsReserve contracts self reserveAfter →
      NotWorse reserve t.usd8.totalSupply reserveAfter next.usd8.totalSupply) :
    Avoids IsWorsened (t.reserveSupplyStatusCheck contracts self body) := by
  refine avoids_bind _ _ (ofRegistry_avoids (fun _ => id) _) ?_
  intro _ _
  refine avoids_bind _ _ (reserveLoop_avoids (fun _ => id) id _ _ _) ?_
  intro reserve valued
  refine avoids_bind _ _ bodyAvoids ?_
  intro next bodyRun
  refine avoids_bind _ _ (reserveLoop_avoids (fun _ => id) id _ _ _) ?_
  intro reserveAfter valuedAfter
  refine avoids_bind _ _ (checkStatus_avoids ?_) ?_
  · exact kept next reserve reserveAfter bodyRun (getReserveBalance_isReserve valued)
      (getReserveBalance_isReserve valuedAfter)
  · intro _ _
    exact avoids_pure next

theorem mintUSD8_avoids (preserving : ValuePreserving contracts self) (usdcAmount : Nat)
    (external : t.External self sender) :
    Avoids IsWorsened (t.mintUSD8 contracts self sender usdcAmount) := by
  refine statusCheck_avoids _ (mintBody_avoids usdcAmount) ?_
  intro next reserve reserveAfter bodyRun before after
  have minted := mintBody_ok preserving usdcAmount external bodyRun
  rw [after.unique (minted.reserve reserve before)]
  exact minted_notWorse usdcAmount minted

theorem redeemUSD8_avoids (preserving : ValuePreserving contracts self)
    (usd8Amount minUsdcOut : Nat) (external : t.External self sender) :
    Avoids IsWorsened (t.redeemUSD8 contracts self sender usd8Amount minUsdcOut) := by
  refine statusCheck_avoids _ (redeemBody_avoids usd8Amount minUsdcOut) ?_
  intro next reserve reserveAfter bodyRun before after
  obtain ⟨paid, valuedReserve, redeemed⟩ :=
    redeemBody_ok preserving usd8Amount minUsdcOut external bodyRun
  rw [before.unique (getReserveBalance_isReserve redeemed.valued),
    after.unique redeemed.reserveAfter]
  exact redeemed_notWorse redeemed

end Errors

/-! ## The other operations -/

/-- The supply is the same and the reserve, where it could be valued, no smaller. -/
structure NoLoss (contracts : ExternalContracts σ) (treasury : Address)
    (t next : TreasuryState σ) : Prop where
  strategies : next.strategies = t.strategies
  supply : next.usd8.totalSupply = t.usd8.totalSupply
  reserve : ∀ reserve, t.IsReserve contracts treasury reserve →
    ∃ after, reserve ≤ after ∧ next.IsReserve contracts treasury after

section Others

variable {t next : TreasuryState σ} {sender : Address}

theorem NoLoss.refl (t : TreasuryState σ) : NoLoss contracts self t t :=
  ⟨rfl, rfl, fun reserve holds => ⟨reserve, le_rfl, holds⟩⟩

theorem NoLoss.trans {middle : TreasuryState σ} (first : NoLoss contracts self t middle)
    (second : NoLoss contracts self middle next) : NoLoss contracts self t next := by
  refine ⟨second.strategies.trans first.strategies, second.supply.trans first.supply, ?_⟩
  intro reserve holds
  obtain ⟨between, grown, holdsBetween⟩ := first.reserve reserve holds
  obtain ⟨after, grownAfter, holdsAfter⟩ := second.reserve between holdsBetween
  exact ⟨after, grown.trans grownAfter, holdsAfter⟩

theorem NoLoss.backed (noLoss : NoLoss contracts self t next)
    (backed : t.Backed contracts self) : next.Backed contracts self := by
  obtain ⟨reserve, holds, covered⟩ := backed
  obtain ⟨after, grown, holdsAfter⟩ := noLoss.reserve reserve holds
  refine ⟨after, holdsAfter, ?_⟩
  rw [noLoss.supply]
  exact covered.trans (Nat.mul_le_mul_right _ grown)

/-- USD8 that changes hands. -/
theorem noLoss_moved {usd8 : Usd8} (event : TreasuryEvent)
    (supply : usd8.totalSupply = t.usd8.totalSupply) :
    NoLoss contracts self t ({ t with usd8 := usd8 }.emit event) :=
  ⟨rfl, supply, fun reserve holds => ⟨reserve, le_rfl, holds⟩⟩

theorem depositToStrategy_noLoss (preserving : ValuePreserving contracts self)
    (strategy : Address) (amount : Nat)
    (run : t.depositToStrategy contracts self sender strategy amount = .ok next) :
    NoLoss contracts self t next := by
  obtain ⟨_, -, run⟩ := (bind_ok_iff _ _ _).mp run
  obtain ⟨_, -, run⟩ := (bind_ok_iff _ _ _).mp run
  obtain ⟨_, -, run⟩ := (bind_ok_iff _ _ _).mp run
  obtain ⟨_, approved, run⟩ := (bind_ok_iff _ _ _).mp run
  obtain ⟨before, -, run⟩ := (bind_ok_iff _ _ _).mp run
  obtain ⟨pushed, transferred, run⟩ := (bind_ok_iff _ _ _).mp run
  obtain ⟨deployed, deployRun, run⟩ := (bind_ok_iff _ _ _).mp run
  obtain ⟨after, -, run⟩ := (bind_ok_iff _ _ _).mp run
  obtain ⟨_, -, run⟩ := (bind_ok_iff _ _ _).mp run
  obtain ⟨_, -, result⟩ := (bind_ok_iff _ _ _).mp run
  cases (pure_ok_iff _ _).mp result
  refine ⟨rfl, rfl, fun reserve holds => ⟨reserve, le_rfl, ?_⟩⟩
  exact deploy_holds preserving t.distinct strategy
    (not_not.mp ((revertIf_ok_iff _ _ _).mp approved)) amount pushed holds
    ((orRevert_ok_iff _ _ _).mp transferred) ((orRevert_ok_iff _ _ _).mp deployRun)

theorem withdrawFromStrategy_noLoss (preserving : ValuePreserving contracts self)
    (strategy : Address) (amount : Nat)
    (run : t.withdrawFromStrategy contracts self sender strategy amount = .ok next) :
    NoLoss contracts self t next := by
  obtain ⟨_, -, run⟩ := (bind_ok_iff _ _ _).mp run
  obtain ⟨_, -, run⟩ := (bind_ok_iff _ _ _).mp run
  obtain ⟨_, approved, run⟩ := (bind_ok_iff _ _ _).mp run
  obtain ⟨_, -, run⟩ := (bind_ok_iff _ _ _).mp run
  obtain ⟨pulled, withdrawRun, run⟩ := (bind_ok_iff _ _ _).mp run
  obtain ⟨received, -, result⟩ := (bind_ok_iff _ _ _).mp run
  cases (pure_ok_iff _ _).mp result
  refine ⟨rfl, rfl, fun reserve holds => ⟨reserve, le_rfl, ?_⟩⟩
  exact withdraw_holds preserving t.distinct strategy
    (not_not.mp ((revertIf_ok_iff _ _ _).mp approved)) amount holds
    ((orRevert_ok_iff _ _ _).mp withdrawRun)

theorem deliver_noLoss (preserving : ValuePreserving contracts self) (p : ProfitReceiver)
    (share : Nat) (event : TreasuryEvent)
    (run : t.deliver contracts self p share = .ok next) :
    NoLoss contracts self t (next.emit event) := by
  unfold deliver at run
  split at run
  next =>
    obtain ⟨usd8, moved, result⟩ := (bind_ok_iff _ _ _).mp run
    cases (pure_ok_iff _ _).mp result
    exact noLoss_moved event (transfer_supply moved)
  next =>
    obtain ⟨⟨after, usd8⟩, hooked, run⟩ := (bind_ok_iff _ _ _).mp run
    obtain ⟨_, -, result⟩ := (bind_ok_iff _ _ _).mp run
    cases (pure_ok_iff _ _).mp result
    obtain ⟨balance, supply, kept⟩ := preserving.received ((orRevert_ok_iff _ _ _).mp hooked)
    refine ⟨rfl, supply, ?_⟩
    intro reserve holds
    obtain ⟨rest, reserveEq, holdsAfter⟩ := Holds.idle holds (fun strategy _ => kept strategy)
    exact ⟨_, by omega, holdsAfter⟩

theorem distributeLoop_noLoss (preserving : ValuePreserving contracts self)
    (weightedRevenue totalWeight lastEligible : Nat) (receivers : List ProfitReceiver)
    (i paid : Nat)
    (run : distributeLoop contracts self weightedRevenue totalWeight lastEligible receivers i paid
      t = .ok next) : NoLoss contracts self t next := by
  induction receivers generalizing i paid t with
  | nil =>
      cases (pure_ok_iff _ _).mp run
      exact .refl _
  | cons p later ih =>
      rw [distributeLoop] at run
      rcases (ite_ok_iff _ _ _ _).mp run with ⟨-, run⟩ | ⟨-, run⟩
      · exact ih _ _ run
      obtain ⟨share, -, run⟩ := (bind_ok_iff _ _ _).mp run
      obtain ⟨paidNext, -, run⟩ := (bind_ok_iff _ _ _).mp run
      rcases (ite_ok_iff _ _ _ _).mp run with ⟨-, run⟩ | ⟨-, run⟩
      · exact ih _ _ run
      obtain ⟨delivered, deliverRun, run⟩ := (bind_ok_iff _ _ _).mp run
      exact (deliver_noLoss preserving p share _ deliverRun).trans (ih _ _ run)

theorem distributeRevenue_noLoss (preserving : ValuePreserving contracts self)
    (distributed : Nat) (run : t.distributeRevenue contracts self distributed = .ok next) :
    NoLoss contracts self t next := by
  obtain ⟨⟨totalWeight, lastEligible⟩, -, run⟩ := (bind_ok_iff _ _ _).mp run
  obtain ⟨_, -, run⟩ := (bind_ok_iff _ _ _).mp run
  obtain ⟨protocolFee, -, run⟩ := (bind_ok_iff _ _ _).mp run
  obtain ⟨weightedRevenue, -, run⟩ := (bind_ok_iff _ _ _).mp run
  obtain ⟨charged, feeRun, run⟩ := (bind_ok_iff _ _ _).mp run
  have rest := distributeLoop_noLoss preserving _ _ _ _ _ _ run
  rcases (ite_ok_iff _ _ _ _).mp feeRun with ⟨-, feeRun⟩ | ⟨-, result⟩
  · obtain ⟨usd8, moved, result⟩ := (bind_ok_iff _ _ _).mp feeRun
    cases (pure_ok_iff _ _).mp result
    exact (noLoss_moved _ (transfer_supply moved)).trans rest
  · cases (pure_ok_iff _ _).mp result
    exact rest

/-- What is harvested is the surplus above more than the supply. -/
theorem harvestSurplus_backed (harvested : Nat) (backed : t.Backed contracts self)
    (run : t.harvestSurplus contracts self = .ok (next, harvested)) :
    next.Backed contracts self := by
  obtain ⟨reserve, valued, run⟩ := (bind_ok_iff _ _ _).mp run
  obtain ⟨reserveInUsd8, scaled, run⟩ := (bind_ok_iff _ _ _).mp run
  obtain ⟨buffer, -, run⟩ := (bind_ok_iff _ _ _).mp run
  obtain ⟨retain, retainRun, run⟩ := (bind_ok_iff _ _ _).mp run
  obtain ⟨-, scaledEq⟩ := (checkedMul_ok_iff _ _ _ _).mp scaled
  obtain ⟨-, retainEq⟩ := (checkedAdd_ok_iff _ _ _ _).mp retainRun
  rcases (ite_ok_iff _ _ _ _).mp run with ⟨above, run⟩ | ⟨-, result⟩
  · obtain ⟨surplus, subtracted, run⟩ := (bind_ok_iff _ _ _).mp run
    obtain ⟨_, -, run⟩ := (bind_ok_iff _ _ _).mp run
    obtain ⟨usd8, minted, result⟩ := (bind_ok_iff _ _ _).mp run
    obtain ⟨-, surplusEq⟩ := (checkedSub_ok_iff _ _ _).mp subtracted
    have supply := mint_supply minted
    cases (pure_ok_iff _ _).mp result
    refine ⟨reserve, getReserveBalance_isReserve valued, ?_⟩
    change usd8.totalSupply ≤ reserve * usdcToUsd8Scale
    omega
  · cases (pure_ok_iff _ _).mp result
    exact backed

theorem harvestAndDistribute_backed (preserving : ValuePreserving contracts self)
    (result : Nat × Nat) (backed : t.Backed contracts self)
    (run : t.harvestAndDistribute contracts self sender = .ok (next, result)) :
    next.Backed contracts self := by
  obtain ⟨_, -, run⟩ := (bind_ok_iff _ _ _).mp run
  obtain ⟨_, -, run⟩ := (bind_ok_iff _ _ _).mp run
  obtain ⟨⟨harvested, amount⟩, harvestRun, run⟩ := (bind_ok_iff _ _ _).mp run
  have backedBetween := harvestSurplus_backed amount backed harvestRun
  rcases (ite_ok_iff _ _ _ _).mp run with ⟨-, result⟩ | ⟨-, run⟩
  · cases (pure_ok_iff _ _).mp result
    exact backedBetween
  · obtain ⟨distributed, distributeRun, result⟩ := (bind_ok_iff _ _ _).mp run
    cases (pure_ok_iff _ _).mp result
    exact (distributeRevenue_noLoss preserving _ distributeRun).backed backedBetween

end Others

end TreasuryState

end Usd8Core.Treasury
