import Usd8Core.Pool.PoolChanges

/-!
# Supply of the outer tokens

The pools and modules only move tokens of others.  The supply of a token therefore grows by
what its own contract mints and by nothing else.
-/

set_option autoImplicit false

namespace Usd8Core.Pool

open Usd8Core.Lib.ByteWords
open Usd8Core.Lib.CheckedCall
open Usd8Core.Lib.FiniteLedger
open Usd8Core.Lib.TraceRun
open Usd8Core.Chain
open Usd8Core.Insurance

/-- All balances of a token together. -/
noncomputable def tokenSupply (ledger : Erc20) (token : Address) : Nat :=
  ∑ account, ledger token account

/-- What a transaction mints of a token. -/
def mintedBy (token : Address) : Tx → Nat
  | .erc20Mint minted _ amount => if minted = token then amount else 0
  | _ => 0

def mintedIn (token : Address) (steps : List (Transition World Tx)) : Nat :=
  (steps.map fun t => mintedBy token t.action).sum

theorem balance_le_tokenSupply (ledger : Erc20) (token account : Address) :
    ledger token account ≤ tokenSupply ledger token :=
  Finset.single_le_sum (f := ledger token) (fun _ _ => Nat.zero_le _) (Finset.mem_univ account)

theorem erc20Transfer_supply (ledger after : Erc20) (moved sender recipient : Address)
    (amount : Nat) (token : Address)
    (run : erc20Transfer ledger moved sender recipient amount = .ok after) :
    tokenSupply after token = tokenSupply ledger token := by
  obtain ⟨-, -, enough, afterEq⟩ := (erc20Transfer_ok_iff _ _ _ _ _ _).mp run
  subst afterEq
  unfold tokenSupply
  by_cases same : token = moved
  · subst same
    rw [Function.update_self]
    exact sum_moveBalance (ledger token) sender recipient amount enough
  · rw [Function.update_of_ne same]

/-- A balance that is set to another value. -/
theorem tokenSupply_update (ledger : Erc20) (token holder : Address) (balance : Nat) :
    tokenSupply (Function.update ledger token (Function.update (ledger token) holder balance))
        token + ledger token holder = tokenSupply ledger token + balance := by
  have changed := sum_differ_at (ledger token) (Function.update (ledger token) holder balance)
    holder (Finset.mem_univ holder) (fun other _ differ => Function.update_of_ne differ _ _)
  unfold tokenSupply
  rw [Function.update_self] at changed ⊢
  exact changed

theorem tokenSupply_other (ledger : Erc20) {token other : Address} (balances : Address → Nat)
    (differ : token ≠ other) :
    tokenSupply (Function.update ledger other balances) token = tokenSupply ledger token := by
  unfold tokenSupply
  rw [Function.update_of_ne differ]

section Calls

variable {env : PoolEnv} {tx next : PoolTx}

theorem maybeSettled_erc20 (maxEpochs : Nat)
    (first : (env.payoutIncidentActive = false ∧ Settled env tx next maxEpochs) ∨ next = tx) :
    next.erc20 = tx.erc20 := by
  rcases first with ⟨-, ⟨pool, events, -, nextEq⟩⟩ | same
  · rw [nextEq]
  · rw [same]

/-- A pool call makes at most one transfer. -/
theorem exec_supply (call : PoolCall) (token : Address)
    (run : PoolTx.exec env tx call = .ok next) :
    tokenSupply next.erc20 token = tokenSupply tx.erc20 token := by
  unfold PoolTx.exec at run
  obtain ⟨_, -, run⟩ := (bind_ok_iff _ _ _).mp run
  cases call with
  | deposit assets receiver =>
      obtain ⟨shares, deposited⟩ := deposit_ok env tx next assets receiver run
      exact erc20Transfer_supply _ _ _ _ _ _ token deposited.received
  | mint shares receiver =>
      obtain ⟨assets, deposited⟩ := mint_ok env tx next shares receiver run
      exact erc20Transfer_supply _ _ _ _ _ _ token deposited.received
  | transfer recipient value =>
      obtain ⟨-, pool, -, nextEq⟩ := transfer_ok env tx next recipient value run
      rw [nextEq]
  | requestRedeem shares =>
      obtain ⟨settled, exitEpoch, requested⟩ := requestRedeem_ok env tx next shares run
      obtain ⟨pool, -, nextEq⟩ := requested.enqueued
      rw [nextEq, ← maybeSettled_erc20 _ requested.first]
  | settleMaturedExitEpochs maxEpochs =>
      obtain ⟨active, settled⟩ := settleMaturedExitEpochs_ok env tx next maxEpochs run
      rw [maybeSettled_erc20 maxEpochs (Or.inl ⟨active, settled⟩)]
  | completeRedeem receiver =>
      obtain ⟨settled, assets, completed⟩ := completeRedeem_ok env tx next receiver run
      rw [erc20Transfer_supply _ _ _ _ _ _ token completed.paid,
        maybeSettled_erc20 _ completed.first]
  | claimReward =>
      obtain ⟨synced, claimed⟩ := claimReward_ok env tx next run
      rcases claimed.paid with ⟨-, nextEq⟩ | ⟨-, -, paid, -, -⟩
      · rw [nextEq]
      · exact erc20Transfer_supply _ _ _ _ _ _ token paid
  | receiveProfitDistribution amount =>
      obtain ⟨synced, newDuration, newRate, profit⟩ :=
        receiveProfitDistribution_ok env tx next amount run
      exact erc20Transfer_supply _ _ _ _ _ _ token profit.received
  | payClaim recipient amount =>
      rcases (payClaim_ok env tx next recipient amount run).paid with
        ⟨-, nextEq⟩ | ⟨-, -, paid, -, -⟩
      · rw [nextEq]
      · exact erc20Transfer_supply _ _ _ _ _ _ token paid
  | setRewardsDuration newDuration =>
      rw [setRewardsDuration_ok env tx next newDuration run]
  | setDepositCap newCap => rw [setDepositCap_ok env tx next newCap run]
  | sweepToken swept recipient =>
      obtain ⟨-, amount, -, transferred, -, -⟩ := sweepToken_ok env tx next swept recipient run
      exact erc20Transfer_supply _ _ _ _ _ _ token transferred

end Calls

section Runs

variable {platform : Platform} {m p sender : Address} {w next : World}

theorem callPool_supply (call : PoolCall) (token : Address)
    (run : w.callPool p sender call = .ok next) :
    tokenSupply next.erc20 token = tokenSupply w.erc20 token := by
  obtain ⟨pool, tx, -, executed, nextEq⟩ := callPool_ok sender call run
  have moved := exec_supply call token executed
  rw [nextEq, emitAll_eq]
  exact moved

theorem effects_supply (effects : ModuleEffects platform m sender w next) (token : Address) :
    tokenSupply next.erc20 token = tokenSupply w.erc20 token := by
  induction effects with
  | refl => rfl
  | tail _ last ih =>
      rw [← ih]
      cases last with
      | stored before after deployed => rfl
      | emitted event own => rfl
      | moved other payer recipient amount erc20 payerKnown run =>
          exact erc20Transfer_supply _ _ _ _ _ _ token run
      | boosted erc1155 others => rfl
      | called _ p call allowed run => exact callPool_supply call token run
      | scored account amount registry event run => rfl

/-- A transaction adds to the supply what it mints. -/
theorem step_supply {tx : Tx} (token : Address) (ran : step platform w tx = .ok next) :
    tokenSupply next.erc20 token ≤ tokenSupply w.erc20 token + mintedBy token tx := by
  cases tx with
  | registry caller call =>
      obtain ⟨_, -, run⟩ := (bind_ok_iff _ _ _).mp ran
      obtain ⟨registry, -, nextEq⟩ := callRegistry_ok call run
      rw [nextEq]
      exact Nat.le_add_right _ _
  | module target caller call =>
      obtain ⟨_, -, run⟩ := (bind_ok_iff _ _ _).mp ran
      rw [effects_supply (callModule_effects call run) token]
      exact Nat.le_add_right _ _
  | pool target caller call =>
      obtain ⟨_, -, run⟩ := (bind_ok_iff _ _ _).mp ran
      rw [callPool_supply call token run]
      exact Nat.le_add_right _ _
  | erc20Transfer moved caller recipient amount =>
      obtain ⟨_, -, run⟩ := (bind_ok_iff _ _ _).mp ran
      obtain ⟨erc20, transferred, nextEq⟩ := (transferErc20_ok_iff _ _ _ _).mp run
      rw [nextEq]
      exact (erc20Transfer_supply _ _ _ _ _ _ token transferred).le.trans (Nat.le_add_right _ _)
  | erc20Mint minted recipient amount =>
      cases (pure_ok_iff _ _).mp ran
      by_cases same : minted = token
      · subst same
        have changed := tokenSupply_update w.erc20 minted recipient
          (w.erc20 minted recipient + amount)
        simp only [World.mintErc20, mintedBy, if_true]
        omega
      · simp only [World.mintErc20, mintedBy, if_neg same]
        rw [tokenSupply_other _ _ (Ne.symm same)]
        exact le_rfl
  | erc20Burn burnt holder amount =>
      obtain ⟨_, -, run⟩ := (bind_ok_iff _ _ _).mp ran
      obtain ⟨_, -, result⟩ := (bind_ok_iff _ _ _).mp run
      cases (pure_ok_iff _ _).mp result
      unfold mintedBy
      by_cases same : burnt = token
      · subst same
        have changed := tokenSupply_update w.erc20 burnt holder (w.erc20 burnt holder - amount)
        simp only at changed ⊢
        omega
      · rw [tokenSupply_other _ _ (Ne.symm same)]
        exact Nat.le_add_right _ _
  | erc1155Transfer collection id caller recipient amount =>
      obtain ⟨_, -, run⟩ := (bind_ok_iff _ _ _).mp ran
      obtain ⟨erc1155, -, result⟩ := (bind_ok_iff _ _ _).mp run
      cases (pure_ok_iff _ _).mp result
      exact Nat.le_add_right _ _
  | erc1155Mint collection id recipient amount =>
      cases (pure_ok_iff _ _).mp ran
      exact Nat.le_add_right _ _
  | erc1155Burn collection id holder amount =>
      obtain ⟨_, -, run⟩ := (bind_ok_iff _ _ _).mp ran
      obtain ⟨erc1155, -, result⟩ := (bind_ok_iff _ _ _).mp run
      cases (pure_ok_iff _ _).mp result
      exact Nat.le_add_right _ _
  | deployModule target =>
      obtain ⟨-, nextEq⟩ := deployModule_ok ran
      rw [nextEq]
      exact Nat.le_add_right _ _
  | deployPool target asset =>
      obtain ⟨-, -, -, nextEq⟩ := deployPool_ok target asset ran
      rw [nextEq]
      exact Nat.le_add_right _ _
  | mine block =>
      obtain ⟨_, -, result⟩ := (bind_ok_iff _ _ _).mp ran
      cases (pure_ok_iff _ _).mp result
      exact Nat.le_add_right _ _

/-- A run adds to the supply of a token at most what is minted in it. -/
theorem run_supply {steps : List (Transition World Tx)} (token : Address)
    (run : IsRun (step platform) w steps next) :
    tokenSupply next.erc20 token ≤ tokenSupply w.erc20 token + mintedIn token steps := by
  induction run with
  | nil => exact Nat.le_add_right _ _
  | snoc earlier middle tx final _ last ih =>
      have step := step_supply token last
      have list : mintedIn token (earlier ++ [⟨middle, tx, final⟩]) =
          mintedIn token earlier + mintedBy token tx := by
        simp [mintedIn]
      omega

end Runs

end Usd8Core.Pool
