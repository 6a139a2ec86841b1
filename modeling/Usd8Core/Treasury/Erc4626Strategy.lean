import Usd8Core.Chain.ChainState
import Usd8Core.Lib.ShareRounding

/-!
# The strategy on an ERC-4626 vault

The vault is a contract of others.  One without fees that rounds as the standard says
never trips the strategy's checks: the loss a deposit may show is covered by the
tolerance, and what a withdrawal redeems pays for it.
-/

set_option autoImplicit false

namespace Usd8Core.Treasury

open Usd8Core.Lib.ByteWords
open Usd8Core.Lib.CheckedCall
open Usd8Core.Lib.ShareRounding
open Usd8Core.Chain

/-- The vault and its USDC over their common state `σ`.  A call that reverts returns nothing. -/
structure Erc4626 (σ : Type) where
  balanceOf : σ → Address → Nat
  convertToAssets : σ → Nat → Option Nat
  /-- By the caller, for a receiver; returns the shares minted. -/
  deposit : σ → Address → Nat → Address → Option (Nat × σ)
  previewWithdraw : σ → Nat → Option Nat
  /-- By the caller, with a receiver and an owner. -/
  redeem : σ → Address → Nat → Address → Address → Option σ
  usdcBalance : σ → Address → Nat

inductive StrategyError where
  | panic (reason : Panic)
  /-- A revert of the vault. -/
  | vault
  | unauthorizedTreasury (caller : Address)
  | zeroSharesMinted
  | depositValueShort (deposited received : Nat)
  | withdrawShort (requested received : Nat)

instance : HasPanic StrategyError := ⟨StrategyError.panic⟩

abbrev StrategyCall := Except StrategyError

inductive StrategyEvent where
  | deployed (amount : Nat)
  | withdrawn (amount : Nat)

/-- The addresses the strategy was deployed with, and its own. -/
structure Erc4626Strategy where
  self : Address
  treasury : Address

namespace Erc4626Strategy

variable {σ : Type} (vault : Erc4626 σ) (strategy : Erc4626Strategy)

def onlyTreasury (sender : Address) : StrategyCall Unit :=
  revertIf (sender ≠ strategy.treasury) (.unauthorizedTreasury sender)

def totalAssets (external : σ) : StrategyCall Nat :=
  orRevert (vault.convertToAssets external (vault.balanceOf external strategy.self)) .vault

def deploy (sender : Address) (amount : Nat) (external : σ) : StrategyCall (σ × StrategyEvent) := do
  strategy.onlyTreasury sender
  let valueBefore ← strategy.totalAssets vault external
  let (shares, external) ←
    orRevert (vault.deposit external strategy.self amount strategy.self) .vault
  revertIf (shares = 0) .zeroSharesMinted
  let valueAfter ← strategy.totalAssets vault external
  let received ← checkedSub valueAfter valueBefore
  let unit ← orRevert (vault.convertToAssets external 1) .vault
  let tolerance ← checkedAdd 256 unit 1
  let tolerated ← checkedAdd 256 received tolerance
  revertIf (tolerated < amount) (.depositValueShort amount received)
  pure (external, .deployed amount)

def withdraw (sender : Address) (amount : Nat) (external : σ) :
    StrategyCall (σ × StrategyEvent) := do
  strategy.onlyTreasury sender
  let shares ← orRevert (vault.previewWithdraw external amount) .vault
  let balanceBefore := vault.usdcBalance external strategy.treasury
  let external ←
    orRevert (vault.redeem external strategy.self shares strategy.treasury strategy.self) .vault
  let received ← checkedSub (vault.usdcBalance external strategy.treasury) balanceBefore
  revertIf (received < amount) (.withdrawShort amount received)
  pure (external, .withdrawn received)

end Erc4626Strategy

/-! ## Vaults without fees -/

/-- Virtual amounts added to the totals, or zeros. -/
structure VirtualOffset where
  assets : Nat
  shares : Nat

structure VaultTotals where
  assets : Nat
  shares : Nat

def VaultTotals.price (totals : VaultTotals) (offset : VirtualOffset) : Price where
  assets := totals.assets + offset.assets
  shares := totals.shares + offset.shares

/-- What the standard says of the calls of the strategy that return. -/
structure RoundsAsSpecified {σ : Type} (vault : Erc4626 σ) (offset : VirtualOffset)
    (totals : σ → VaultTotals) (strategy : Erc4626Strategy) : Prop where
  converted : ∀ {external : σ} {shares value : Nat},
    vault.convertToAssets external shares = some value →
    value = toAssets ((totals external).price offset) shares
  deposited : ∀ {external after : σ} {amount shares : Nat},
    vault.deposit external strategy.self amount strategy.self = some (shares, after) →
    shares = toShares ((totals external).price offset) amount ∧
      totals after = ⟨(totals external).assets + amount, (totals external).shares + shares⟩ ∧
      vault.balanceOf after strategy.self = vault.balanceOf external strategy.self + shares
  previewed : ∀ {external : σ} {amount shares : Nat},
    vault.previewWithdraw external amount = some shares →
    shares = toSharesUp ((totals external).price offset) amount
  redeemed : ∀ {external after : σ} {shares : Nat},
    vault.redeem external strategy.self shares strategy.treasury strategy.self = some after →
    vault.usdcBalance after strategy.treasury = vault.usdcBalance external strategy.treasury +
      toAssets ((totals external).price offset) shares

/-- The vault does not refuse: it quotes what fits a word, and redeems what the strategy
holds and the vault has. -/
structure Serves {σ : Type} (vault : Erc4626 σ) (offset : VirtualOffset)
    (totals : σ → VaultTotals) (strategy : Erc4626Strategy) : Prop where
  word : ∀ external, vault.balanceOf external strategy.self < uintBound 256
  previews : ∀ external amount,
    toSharesUp ((totals external).price offset) amount < uintBound 256 →
    ∃ shares, vault.previewWithdraw external amount = some shares
  redeems : ∀ external shares, shares ≤ vault.balanceOf external strategy.self →
    toAssets ((totals external).price offset) shares ≤ (totals external).assets →
    ∃ after, vault.redeem external strategy.self shares strategy.treasury strategy.self =
      some after

/-- No virtual assets, or the one unit that goes with virtual shares. -/
def VirtualOffset.Solvent (offset : VirtualOffset) : Prop :=
  offset.assets = 0 ∨ offset.assets = 1 ∧ 0 < offset.shares

/-- The reverts that the strategy's own checks and subtractions can cause. -/
def StrategyError.IsShort : StrategyError → Prop
  | .panic .underflow => True
  | .depositValueShort _ _ => True
  | .withdrawShort _ _ => True
  | _ => False

namespace Erc4626Strategy

open StrategyError (IsShort)

variable {σ : Type} {vault : Erc4626 σ} {offset : VirtualOffset} {totals : σ → VaultTotals}
  {strategy : Erc4626Strategy} {external : σ}

theorem totalAssets_ok (specified : RoundsAsSpecified vault offset totals strategy) {total : Nat}
    (run : strategy.totalAssets vault external = .ok total) :
    total = toAssets ((totals external).price offset) (vault.balanceOf external strategy.self) :=
  specified.converted ((orRevert_ok_iff _ _ _).mp run)

/-- A deposit moves the price as the library's `deposited` does. -/
theorem price_deposited (offset : VirtualOffset) (totals : VaultTotals) (amount : Nat) :
    VaultTotals.price ⟨totals.assets + amount,
        totals.shares + toShares (totals.price offset) amount⟩ offset =
      deposited (totals.price offset) amount := by
  simp [VaultTotals.price, deposited]
  omega

theorem deploy_avoids (specified : RoundsAsSpecified vault offset totals strategy)
    (assetsPos : 0 < (totals external).assets) (sharesPos : 0 < (totals external).shares)
    (sender : Address) (amount : Nat) :
    Avoids IsShort (strategy.deploy vault sender amount external) := by
  refine avoids_revertIf_bind _ _ _ (fun _ => id) fun _ => ?_
  refine avoids_bind _ _ (avoids_orRevert _ _ (fun _ => id)) fun valueBefore valued => ?_
  refine avoids_bind _ _ (avoids_orRevert _ _ (fun _ => id)) fun result ran => ?_
  obtain ⟨shares, after⟩ := result
  obtain ⟨minted, totalsAfter, held⟩ := specified.deposited ((orRevert_ok_iff _ _ _).mp ran)
  refine avoids_revertIf_bind _ _ _ (fun _ => id) fun _ => ?_
  refine avoids_bind _ _ (avoids_orRevert _ _ (fun _ => id)) fun valueAfter valuedAfter => ?_
  have price : (totals after).price offset =
      Lib.ShareRounding.deposited ((totals external).price offset) amount := by
    rw [totalsAfter, minted, price_deposited]
  have beforeEq := totalAssets_ok specified valued
  have afterEq := totalAssets_ok specified valuedAfter
  rw [price, held, minted] at afterEq
  have assetsPriced : 0 < ((totals external).price offset).assets := Nat.add_pos_left assetsPos _
  have sharesPriced : 0 < ((totals external).price offset).shares := Nat.add_pos_left sharesPos _
  have grows := toAssets_le_deposited sharesPriced (vault.balanceOf external strategy.self) amount
  have loss := deposit_loss assetsPriced sharesPriced (vault.balanceOf external strategy.self) amount
  rw [← beforeEq, ← afterEq] at grows loss
  refine avoids_bind _ _ (avoids_checkedSub _ _ (by omega)) fun received receivedRun => ?_
  obtain ⟨-, receivedEq⟩ := (checkedSub_ok_iff _ _ _).mp receivedRun
  refine avoids_bind _ _ (avoids_orRevert _ _ (fun _ => id)) fun unit unitRun => ?_
  have unitEq := specified.converted ((orRevert_ok_iff _ _ _).mp unitRun)
  rw [price] at unitEq
  refine avoids_bind _ _ (avoids_checkedAdd _ _ _ id) fun tolerance toleranceRun => ?_
  obtain ⟨-, toleranceEq⟩ := (checkedAdd_ok_iff _ _ _ _).mp toleranceRun
  refine avoids_bind _ _ (avoids_checkedAdd _ _ _ id) fun tolerated toleratedRun => ?_
  obtain ⟨-, toleratedEq⟩ := (checkedAdd_ok_iff _ _ _ _).mp toleratedRun
  refine avoids_revertIf_bind _ _ _ (fun short => absurd short (by omega)) fun _ => ?_
  exact avoids_pure _

/-- What a redemption pays is no less than what was asked for. -/
theorem withdraw_received (specified : RoundsAsSpecified vault offset totals strategy)
    (assetsPos : 0 < (totals external).assets) (sharesPos : 0 < (totals external).shares)
    {amount shares : Nat} {after : σ} (previewed : vault.previewWithdraw external amount = some shares)
    (ran : vault.redeem external strategy.self shares strategy.treasury strategy.self = some after) :
    vault.usdcBalance external strategy.treasury + amount ≤
      vault.usdcBalance after strategy.treasury := by
  have assetsPriced : 0 < ((totals external).price offset).assets := Nat.add_pos_left assetsPos _
  have sharesPriced : 0 < ((totals external).price offset).shares := Nat.add_pos_left sharesPos _
  have paid := le_toAssets_toSharesUp assetsPriced sharesPriced amount
  rw [← specified.previewed previewed] at paid
  rw [specified.redeemed ran]
  omega

theorem withdraw_avoids (specified : RoundsAsSpecified vault offset totals strategy)
    (assetsPos : 0 < (totals external).assets) (sharesPos : 0 < (totals external).shares)
    (sender : Address) (amount : Nat) :
    Avoids IsShort (strategy.withdraw vault sender amount external) := by
  refine avoids_revertIf_bind _ _ _ (fun _ => id) fun _ => ?_
  refine avoids_bind _ _ (avoids_orRevert _ _ (fun _ => id)) fun shares previewed => ?_
  refine avoids_bind _ _ (avoids_orRevert _ _ (fun _ => id)) fun after ran => ?_
  have paid := withdraw_received specified assetsPos sharesPos
    ((orRevert_ok_iff _ _ _).mp previewed) ((orRevert_ok_iff _ _ _).mp ran)
  refine avoids_bind _ _ (avoids_checkedSub _ _ (by omega)) fun received receivedRun => ?_
  obtain ⟨-, receivedEq⟩ := (checkedSub_ok_iff _ _ _).mp receivedRun
  refine avoids_revertIf_bind _ _ _ (fun short => absurd short (by omega)) fun _ => ?_
  exact avoids_pure _

/-- What a withdrawal that went through delivered. -/
theorem withdraw_ok {sender : Address} {amount : Nat} {after : σ} {event : StrategyEvent}
    (run : strategy.withdraw vault sender amount external = .ok (after, event)) :
    vault.usdcBalance external strategy.treasury + amount ≤
      vault.usdcBalance after strategy.treasury := by
  obtain ⟨_, -, run⟩ := (bind_ok_iff _ _ _).mp run
  obtain ⟨shares, -, run⟩ := (bind_ok_iff _ _ _).mp run
  obtain ⟨paid, -, run⟩ := (bind_ok_iff _ _ _).mp run
  obtain ⟨received, subtracted, run⟩ := (bind_ok_iff _ _ _).mp run
  obtain ⟨_, enough, result⟩ := (bind_ok_iff _ _ _).mp run
  obtain ⟨within, receivedEq⟩ := (checkedSub_ok_iff _ _ _).mp subtracted
  have enough := (revertIf_ok_iff _ _ _).mp enough
  cases (pure_ok_iff _ _).mp result
  omega

/-- The Treasury's withdrawal of no more than the holding is worth goes through. -/
theorem withdraw_succeeds (specified : RoundsAsSpecified vault offset totals strategy)
    (serves : Serves vault offset totals strategy) (solvent : offset.Solvent)
    (assetsPos : 0 < (totals external).assets) (sharesPos : 0 < (totals external).shares)
    (held : vault.balanceOf external strategy.self ≤ (totals external).shares) {amount : Nat}
    (within : amount ≤
      toAssets ((totals external).price offset) (vault.balanceOf external strategy.self)) :
    ∃ after event,
      strategy.withdraw vault strategy.treasury amount external = .ok (after, event) := by
  have assetsPriced : 0 < ((totals external).price offset).assets := Nat.add_pos_left assetsPos _
  have needed := toSharesUp_le_of_le assetsPriced within
  obtain ⟨shares, previewed⟩ := serves.previews external amount
    (needed.trans_lt (serves.word external))
  have sharesEq := specified.previewed previewed
  rw [← sharesEq] at needed
  obtain ⟨after, ran⟩ := serves.redeems external shares needed
    (toAssets_covered solvent (needed.trans held))
  have paid := withdraw_received specified assetsPos sharesPos previewed ran
  have authorized : strategy.onlyTreasury strategy.treasury = .ok () :=
    (revertIf_ok_iff _ _ _).mpr (not_not.mpr rfl)
  have quoted : orRevert (vault.previewWithdraw external amount) StrategyError.vault = .ok shares :=
    (orRevert_ok_iff _ _ _).mpr previewed
  have redeemed : orRevert (vault.redeem external strategy.self shares strategy.treasury
      strategy.self) StrategyError.vault = .ok after := (orRevert_ok_iff _ _ _).mpr ran
  have received : (checkedSub (vault.usdcBalance after strategy.treasury)
      (vault.usdcBalance external strategy.treasury) : StrategyCall Nat) = .ok _ :=
    (checkedSub_ok_iff _ _ _).mpr ⟨by omega, rfl⟩
  have enough : ¬ vault.usdcBalance after strategy.treasury -
      vault.usdcBalance external strategy.treasury < amount := by omega
  refine ⟨after, .withdrawn (vault.usdcBalance after strategy.treasury -
    vault.usdcBalance external strategy.treasury), ?_⟩
  unfold withdraw
  refine (bind_after authorized _).trans ?_
  refine (bind_after quoted _).trans ?_
  refine (bind_after redeemed _).trans ?_
  refine (bind_after received _).trans ?_
  exact bind_after ((revertIf_ok_iff _ _ ()).mpr enough) _

/-- The tolerance covers the rounding of every deposit, and a withdrawal within the value of
the holding redeems no more than it and delivers what was asked for. -/
theorem rounding_tolerated (specified : RoundsAsSpecified vault offset totals strategy)
    (external : σ) (assetsPos : 0 < (totals external).assets)
    (sharesPos : 0 < (totals external).shares)
    (held : vault.balanceOf external strategy.self ≤ (totals external).shares) :
    (∀ sender amount, Avoids IsShort (strategy.deploy vault sender amount external)) ∧
    ∀ total, strategy.totalAssets vault external = .ok total → ∀ amount ≤ total,
      (∀ shares, vault.previewWithdraw external amount = some shares →
        shares ≤ vault.balanceOf external strategy.self) ∧
      (∀ sender, Avoids IsShort (strategy.withdraw vault sender amount external)) ∧
      (∀ sender after event, strategy.withdraw vault sender amount external = .ok (after, event) →
        vault.usdcBalance external strategy.treasury + amount ≤
          vault.usdcBalance after strategy.treasury) ∧
      (Serves vault offset totals strategy → offset.Solvent → ∃ after event,
        strategy.withdraw vault strategy.treasury amount external = .ok (after, event)) := by
  refine ⟨fun sender amount => deploy_avoids specified assetsPos sharesPos sender amount, ?_⟩
  intro total valued amount within
  rw [totalAssets_ok specified valued] at within
  refine ⟨?_, fun sender => withdraw_avoids specified assetsPos sharesPos sender amount,
    fun _ _ _ run => withdraw_ok run,
    fun serves solvent => withdraw_succeeds specified serves solvent assetsPos sharesPos held within⟩
  intro shares previewed
  rw [specified.previewed previewed]
  exact toSharesUp_le_of_le (Nat.add_pos_left assetsPos _) within

end Erc4626Strategy

/-! ## A vault with one virtual unit -/

/-- The totals, who holds which shares, and USDC. -/
structure SimpleVault where
  totals : VaultTotals
  balances : Address → Nat
  usdc : Address → Nat

namespace SimpleVault

def offset : VirtualOffset := ⟨1, 1⟩

def price (state : SimpleVault) : Price := state.totals.price offset

def word (value : Nat) : Option Nat := if value < uintBound 256 then some value else none

/-- The calls, for a strategy whose USDC is there already. -/
def contract : Erc4626 SimpleVault where
  balanceOf state account := state.balances account % uintBound 256
  convertToAssets state shares := word (toAssets state.price shares)
  deposit state _ amount receiver := do
    let shares ← word (toShares state.price amount)
    let balance ← word (state.balances receiver % uintBound 256 + shares)
    pure (shares,
      { state with
        totals := ⟨state.totals.assets + amount, state.totals.shares + shares⟩
        balances := Function.update state.balances receiver balance })
  previewWithdraw state amount := word (toSharesUp state.price amount)
  redeem state _ shares receiver owner :=
    if shares ≤ state.balances owner % uintBound 256 ∧
        toAssets state.price shares ≤ state.totals.assets then
      some
        { totals := ⟨state.totals.assets - toAssets state.price shares,
            state.totals.shares - shares⟩
          balances := Function.update state.balances owner
            (state.balances owner % uintBound 256 - shares)
          usdc := Function.update state.usdc receiver
            (state.usdc receiver + toAssets state.price shares) }
    else none
  usdcBalance state := state.usdc

theorem word_eq_some {value result : Nat} (fits : word value = some result) :
    value < uintBound 256 ∧ value = result := by
  unfold word at fits
  split at fits
  next small => exact ⟨small, Option.some.inj fits⟩
  next => cases fits

theorem contract_specified (strategy : Erc4626Strategy) :
    RoundsAsSpecified contract offset SimpleVault.totals strategy where
  converted returned := (word_eq_some returned).2.symm
  deposited := by
    intro external after amount shares returned
    obtain ⟨minted, mintedWord, returned⟩ := Option.bind_eq_some_iff.mp returned
    obtain ⟨balance, balanceWord, returned⟩ := Option.bind_eq_some_iff.mp returned
    obtain ⟨fits, balanceEq⟩ := word_eq_some balanceWord
    cases returned
    refine ⟨(word_eq_some mintedWord).2.symm, rfl, ?_⟩
    simp only [contract, Function.update_self]
    rw [← balanceEq, Nat.mod_eq_of_lt fits]
  previewed returned := (word_eq_some returned).2.symm
  redeemed := by
    intro external after shares returned
    obtain ⟨-, ⟨⟩⟩ := Option.ite_none_right_eq_some.mp returned
    simp [contract, price]

theorem contract_serves (strategy : Erc4626Strategy) :
    Serves contract offset SimpleVault.totals strategy where
  word _ := Nat.mod_lt _ (uintBound_pos 256)
  previews _ _ fits := ⟨_, if_pos fits⟩
  redeems _ _ held covered := ⟨_, if_pos ⟨held, covered⟩⟩

def treasury : Address := Address.ofNat 50
def strategy : Erc4626Strategy := ⟨Address.ofNat 70, treasury⟩

/-- A third of 300 shares that are worth a thousand. -/
def grown : SimpleVault where
  totals := ⟨1000, 300⟩
  balances := Function.update (fun _ => 0) strategy.self 100
  usdc _ := 0

end SimpleVault

open SimpleVault in
/-- All the holding is worth can be withdrawn. -/
theorem simpleVault_withdraws :
    (∃ total after event, strategy.totalAssets contract grown = .ok total ∧
      strategy.withdraw contract treasury total grown = .ok (after, event)) ∧
    Avoids StrategyError.IsShort (strategy.deploy contract treasury 500 grown) := by
  have tolerated := Erc4626Strategy.rounding_tolerated (contract_specified strategy) grown
    (by decide) (by decide) (by decide)
  have valued : strategy.totalAssets contract grown = .ok 332 :=
    (orRevert_ok_iff _ _ _).mpr (by decide)
  obtain ⟨after, event, ran⟩ :=
    (tolerated.2 332 valued 332 le_rfl).2.2.2 (contract_serves strategy) (.inr ⟨rfl, by decide⟩)
  exact ⟨⟨332, after, event, valued, ran⟩, tolerated.1 treasury 500⟩

end Usd8Core.Treasury
