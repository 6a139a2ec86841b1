import Usd8Core.Insurance.Solvency

/-!
# No refund is short

In a module that is in order neither `cancelClaim` nor any branch of
`finalizeClaim` can fail on an underflow or on a balance of the module.
-/

set_option autoImplicit false

namespace Usd8Core.Insurance

open Usd8Core.Lib.ByteWords
open Usd8Core.Lib.CheckedCall
open Usd8Core.Chain
open Usd8Core.Pool

/-- An underflow, or a transfer the account at `m` cannot cover. -/
def IsShortfall (m : Address) : ContractError → Prop
  | .panic reason => reason = .underflow
  | .erc20InsufficientBalance _ account => account = m
  | .erc1155InsufficientBalance _ account => account = m
  | _ => False

section Transfers

variable {m : Address} {w : World}

theorem erc20Transfer_avoids (ledger : Erc20) (token sender recipient : Address) (amount : Nat)
    (enough : sender = m → amount ≤ ledger token sender) :
    Avoids (IsShortfall m) (erc20Transfer ledger token sender recipient amount) := by
  unfold erc20Transfer
  apply avoids_revertIf_bind _ _ _ (fun _ => not_false)
  intro _
  apply avoids_revertIf_bind _ _ _ (fun _ => not_false)
  intro _
  apply avoids_revertIf_bind
  · intro short isModule
    have held := enough isModule
    omega
  · intro _
    exact avoids_pure _

theorem transferErc20_avoids (token sender recipient : Address) (amount : Nat)
    (enough : sender = m → amount ≤ w.erc20 token sender) :
    Avoids (IsShortfall m) (w.transferErc20 token sender recipient amount) := by
  apply avoids_bind
  · exact erc20Transfer_avoids _ token sender recipient amount enough
  · intro erc20 _
    exact avoids_pure _

theorem erc1155Burn_avoids (ledger : Erc1155) (collection : Address) (id : Nat) (amount : Nat)
    (enough : amount ≤ ledger collection id m) :
    Avoids (IsShortfall m) (erc1155Burn ledger collection id m amount) := by
  unfold erc1155Burn
  apply avoids_revertIf_bind _ _ _ (fun _ => not_false)
  intro _
  apply avoids_revertIf_bind
  · intro short _
    omega
  · intro _
    exact avoids_pure _

theorem erc1155Transfer_avoids (ledger : Erc1155) (collection : Address) (id : Nat)
    (recipient : Address) (amount : Nat) (enough : amount ≤ ledger collection id m) :
    Avoids (IsShortfall m) (erc1155Transfer ledger collection id m recipient amount) := by
  unfold erc1155Transfer
  apply avoids_revertIf_bind _ _ _ (fun _ => not_false)
  intro _
  apply avoids_revertIf_bind _ _ _ (fun _ => not_false)
  intro _
  apply avoids_revertIf_bind
  · intro short _
    omega
  · intro _
    exact avoids_pure _

theorem resolveBoosters_avoids (claim : Claim) (recipient : Address) (burnAmount : Nat)
    (bounded : burnAmount ≤ claim.boosterAmount)
    (held : claim.boosterAmount ≤ w.erc1155 w.registry.boosterConfig.collection
      w.registry.boosterConfig.tokenId m) :
    Avoids (IsShortfall m) (w.resolveBoosters m claim recipient burnAmount) := by
  unfold World.resolveBoosters
  apply avoids_ite
  · intro _
    apply avoids_bind
    · apply avoids_ite
      · intro _
        exact erc1155Burn_avoids _ _ _ _ (bounded.trans held)
      · intro _
        exact avoids_pure _
    intro burnt burntRun
    have left : claim.boosterAmount - burnAmount ≤ burnt w.registry.boosterConfig.collection
        w.registry.boosterConfig.tokenId m := by
      rcases (ite_ok_iff _ _ _ _).mp burntRun with ⟨-, ran⟩ | ⟨-, same⟩
      · obtain ⟨-, -, burntEq⟩ := (erc1155Burn_ok_iff _ _ _ _ _ _).mp ran
        rw [burntEq, Function.update_self, Function.update_self, Function.update_self]
        omega
      · rw [← (pure_ok_iff _ _).mp same]
        omega
    apply avoids_bind
    · apply avoids_ite
      · intro _
        exact erc1155Transfer_avoids _ _ _ _ _ left
      · intro _
        exact avoids_pure _
    · intro _ _
      exact avoids_pure _
  · intro _
    exact avoids_pure _

theorem resolveClaimBond_avoids (base : DefiInsurance) (claim : Claim) (recipient : Address)
    (present : w.modules m = some base) (counted : claim.bondAmount ≤ base.escrowedClaimBonds)
    (held : claim.bondAmount ≤ w.erc20 w.registry.usd8 m) :
    Avoids (IsShortfall m) (w.resolveClaimBond m claim recipient) := by
  unfold World.resolveClaimBond
  apply avoids_bind
  · exact transferErc20_avoids _ _ _ _ (fun _ => held)
  intro moved movedRun
  obtain ⟨erc20, -, movedEq⟩ := (transferErc20_ok_iff _ _ _ _).mp movedRun
  subst movedEq
  apply avoids_bind
  · exact avoids_orRevert _ _ (fun _ => not_false)
  intro mod modRun
  have sameMod : mod = base :=
    Option.some.inj (((getModule_ok_iff mod).mp modRun).symm.trans present)
  subst sameMod
  apply avoids_bind
  · apply avoids_checkedSub
    intro below
    omega
  · intro _ _
    exact avoids_pure _

/-- A full refund of a claim that the module's balances and counters cover. -/
theorem refundClaim_avoids (base : DefiInsurance) (claim : Claim) (token recipient : Address)
    (present : w.modules m = some base) (bondCounted : claim.bondAmount ≤ base.escrowedClaimBonds)
    (tokenCounted : claim.insuredTokenAmount ≤ base.escrowedInsuredTokens token)
    (tokens : ∀ other, escrowOf w.registry base other ≤ w.erc20 other m)
    (boosters : claim.boosterAmount ≤ w.erc1155 w.registry.boosterConfig.collection
      w.registry.boosterConfig.tokenId m) :
    Avoids (IsShortfall m) (w.refundClaim m claim token recipient) := by
  unfold World.refundClaim
  apply avoids_bind
  · exact resolveBoosters_avoids claim recipient 0 (Nat.zero_le _) boosters
  intro boosted boostedRun
  obtain ⟨erc1155, -, boostedEq⟩ :=
    resolveBoosters_ok claim recipient 0 (Nat.zero_le _) boostedRun
  subst boostedEq
  have bondHeld : claim.bondAmount ≤ w.erc20 w.registry.usd8 m := by
    have covered := tokens w.registry.usd8
    rw [escrowOf, if_pos rfl] at covered
    omega
  apply avoids_bind
  · exact resolveClaimBond_avoids (w := { w with erc1155 := erc1155 }) base claim recipient present
      bondCounted bondHeld
  intro bonded bondedRun
  obtain ⟨-, erc20, bondMoved, bondedEq⟩ :=
    resolveClaimBond_ok (w := { w with erc1155 := erc1155 }) base claim recipient present bondedRun
  subst bondedEq
  have tokenHeld : claim.insuredTokenAmount ≤ erc20 token m := by
    have covered := tokens token
    have out := erc20Transfer_outflow _ _ _ _ _ _ bondMoved token
    change w.erc20 token m ≤ erc20 token m + if token = w.registry.usd8 then _ else 0 at out
    unfold escrowOf at covered
    by_cases isUsd8 : token = w.registry.usd8
    · rw [if_pos isUsd8] at covered out
      omega
    · rw [if_neg isUsd8] at covered out
      omega
  apply avoids_bind
  · exact transferErc20_avoids _ _ _ _ (fun _ => tokenHeld)
  intro moved movedRun
  obtain ⟨movedErc20, -, movedEq⟩ := (transferErc20_ok_iff _ _ _ _).mp movedRun
  subst movedEq
  apply avoids_bind
  · exact avoids_orRevert _ _ (fun _ => not_false)
  intro mod modRun
  have sameMod := Option.some.inj (((getModule_ok_iff mod).mp modRun).symm.trans
    (setModule_self _))
  subst sameMod
  apply avoids_bind
  · apply avoids_checkedSub
    intro below
    exact absurd tokenCounted (Nat.not_le.mpr below)
  · intro _ _
    exact avoids_pure _

end Transfers

/-! ## Cancelling and recovering -/

section Refunding

variable {platform : Platform} {m sender : Address} {w : World} {mod : DefiInsurance}

/-- What a live claim can draw on in a module that is in order. -/
theorem ModuleInOrder.boostersHeld (inOrder : ModuleInOrder m w mod) (claimId : Nat)
    (filed : (mod.claims claimId).user ≠ Address.zero)
    (unresolved : (mod.claims claimId).resolved = false) :
    (mod.claims claimId).boosterAmount ≤ w.erc1155 w.registry.boosterConfig.collection
      w.registry.boosterConfig.tokenId m :=
  (le_liveSum claimId (inOrder.book.inside filed).2 ⟨filed, unresolved⟩ Claim.boosterAmount).trans
    inOrder.backed.boosters

theorem cancelClaim_avoids (present : w.modules m = some mod) (inOrder : ModuleInOrder m w mod) :
    Avoids (IsShortfall m) (w.cancelClaim platform m sender) := by
  unfold World.cancelClaim
  apply avoids_bind
  · exact avoids_orRevert _ _ (fun _ => not_false)
  intro found foundRun
  cases present.symm.trans ((getModule_ok_iff found).mp foundRun)
  apply avoids_revertIf_bind _ _ _ (fun _ => not_false)
  intro claimed
  apply avoids_revertIf_bind _ _ _ (fun _ => not_false)
  intro _
  apply avoids_revertIf_bind _ _ _ (fun _ => not_false)
  intro _
  apply avoids_revertIf_bind _ _ _ (fun _ => not_false)
  intro resolved
  generalize idEq : mod.claimIdByIncidentAndUser (mod.activeIncidentId w.now) sender = claimId
    at claimed resolved ⊢
  obtain ⟨sameUser, notZero, sameIncident⟩ :=
    inOrder.book.claimOf (mod.activeIncidentId w.now) sender (by rw [idEq]; exact claimed)
  rw [idEq] at sameUser sameIncident
  have filed : (mod.claims claimId).user ≠ Address.zero := by
    rw [sameUser]
    exact notZero
  have unresolved : (mod.claims claimId).resolved = false := by simpa using resolved
  obtain ⟨tokenCounted, bondCounted, counted⟩ := inOrder.book.covers claimId filed unresolved
  rw [sameIncident] at tokenCounted counted
  apply avoids_bind
  · apply avoids_checkedSub
    intro below
    omega
  intro left _
  apply avoids_bind
  · refine refundClaim_avoids _ _ _ _ (setModule_self _) ?_ ?_ inOrder.backed.tokens ?_
    · exact bondCounted
    · exact tokenCounted
    · exact inOrder.boostersHeld claimId filed unresolved
  · intro _ _
    exact avoids_pure _

theorem recoverClaim_avoids (claimId : Nat) (acceptPayout : Bool)
    (inOrder : ModuleInOrder m w mod) (filed : (mod.claims claimId).user ≠ Address.zero)
    (unresolved : (mod.claims claimId).resolved = false) :
    Avoids (IsShortfall m) (w.recoverClaim m sender mod claimId acceptPayout) := by
  obtain ⟨tokenCounted, bondCounted, counted⟩ := inOrder.book.covers claimId filed unresolved
  unfold World.recoverClaim World.resolveWithoutSettlement
  apply avoids_revertIf_bind _ _ _ (fun _ => not_false)
  intro _
  apply avoids_revertIf_bind _ _ _ (fun _ => not_false)
  intro _
  apply avoids_bind
  · apply avoids_checkedSub
    intro below
    omega
  intro left _
  apply avoids_bind
  · refine refundClaim_avoids _ _ _ _ (setModule_self _) ?_ ?_ inOrder.backed.tokens ?_
    · exact bondCounted
    · exact tokenCounted
    · exact inOrder.boostersHeld claimId filed unresolved
  · intro _ _
    exact avoids_pure _

end Refunding

/-! ## Finalizing -/

section Finalizing

variable {platform : Platform} {m sender : Address} {w : World} {mod : DefiInsurance}

theorem checkRow_avoids (claimId : Nat) (acceptPayout : Bool) (row : PayoutRow)
    (proof : List Hash) :
    Avoids (IsShortfall m) (w.checkRow platform m sender mod claimId acceptPayout row proof) := by
  unfold World.checkRow
  apply avoids_revertIf_bind _ _ _ (fun _ => not_false)
  intro _
  apply avoids_bind
  · unfold World.checkPayoutWindow
    apply avoids_ite
    · intro _
      apply avoids_revertIf_bind _ _ _ (fun _ => not_false)
      intro _
      exact avoids_revertIf _ _ (fun _ => not_false)
    · intro _
      exact avoids_pure _
  intro _ _
  apply avoids_revertIf_bind _ _ _ (fun _ => not_false)
  intro _
  apply avoids_revertIf_bind _ _ _ (fun _ => not_false)
  intro _
  apply avoids_revertIf_bind _ _ _ (fun _ => not_false)
  intro _
  apply avoids_bind
  · unfold World.expectedBoostedScore
    apply avoids_bind _ _ (avoids_checkedMul _ _ _ (by simp [panic_eq, IsShortfall]))
    intro _ _
    apply avoids_bind _ _ (avoids_checkedAdd _ _ _ (by simp [panic_eq, IsShortfall]))
    intro _ _
    exact avoids_mulDiv _ _ _ (by simp [panic_eq, IsShortfall]) (by simp [panic_eq, IsShortfall])
  intro _ _
  apply avoids_revertIf_bind _ _ _ (fun _ => not_false)
  intro _
  exact avoids_revertIf _ _ (fun _ => not_false)

theorem releaseClaim_avoids (claimId : Nat) (paid : Bool) (row : PayoutRow)
    (inOrder : ModuleInOrder m w mod) (filed : (mod.claims claimId).user ≠ Address.zero)
    (unresolved : (mod.claims claimId).resolved = false)
    (bounded : row.eligibleBoosterAmount ≤ (mod.claims claimId).boosterAmount) :
    Avoids (IsShortfall m) (w.releaseClaim m mod claimId paid row) := by
  obtain ⟨tokenCounted, bondCounted, -⟩ := inOrder.book.covers claimId filed unresolved
  have covered := inOrder.backed.tokens
  unfold World.releaseClaim
  apply avoids_revertIf_bind _ _ _ (fun _ => not_false)
  intro _
  apply avoids_bind
  · apply avoids_checkedSub
    intro below
    omega
  intro escrowed escrowedRun
  obtain ⟨-, escrowedEq⟩ := (checkedSub_ok_iff _ _ _).mp escrowedRun
  subst escrowedEq
  generalize refundEq : (if paid = true then
      (mod.claims claimId).insuredTokenAmount - row.eligibleAmount
      else (mod.claims claimId).insuredTokenAmount) = refund
  have refundLe : refund ≤ (mod.claims claimId).insuredTokenAmount := by
    rw [← refundEq]
    split
    · exact Nat.sub_le _ _
    · exact le_rfl
  have tokenHeld := covered (mod.incidents (mod.claims claimId).incidentId).insuredToken
  have refundHeld : refund ≤ w.erc20
      (mod.incidents (mod.claims claimId).incidentId).insuredToken m := by
    unfold escrowOf at tokenHeld
    omega
  apply avoids_bind
  · apply avoids_ite
    · intro _
      exact transferErc20_avoids _ _ _ _ (fun _ => refundHeld)
    · intro _
      exact avoids_pure _
  intro refunded refundedRun
  -- what is left of USD8 after the refund still covers the bond
  have afterRefund : ∃ ledger, refunded = ({ w with erc20 := ledger } : World).setModule m
      (World.releasedModule mod claimId (mod.escrowedInsuredTokens
        (mod.incidents (mod.claims claimId).incidentId).insuredToken -
          (mod.claims claimId).insuredTokenAmount)) ∧
      (mod.claims claimId).bondAmount ≤ ledger w.registry.usd8 m := by
    have bondHeld := covered w.registry.usd8
    rw [escrowOf, if_pos rfl] at bondHeld
    rcases (ite_ok_iff _ _ _ _).mp refundedRun with ⟨-, ran⟩ | ⟨-, same⟩
    · obtain ⟨ledger, transferred, refundedEq⟩ := (transferErc20_ok_iff _ _ _ _).mp ran
      refine ⟨ledger, refundedEq, ?_⟩
      have out : w.erc20 w.registry.usd8 m ≤ ledger w.registry.usd8 m + _ :=
        erc20Transfer_outflow _ _ _ _ _ _ transferred w.registry.usd8
      by_cases sameToken : w.registry.usd8 =
          (mod.incidents (mod.claims claimId).incidentId).insuredToken
      · rw [if_pos sameToken] at out
        rw [← sameToken] at tokenCounted
        omega
      · rw [if_neg sameToken] at out
        omega
    · exact ⟨w.erc20, ((pure_ok_iff _ _).mp same).symm, by omega⟩
  obtain ⟨ledger, refundedEq, bondHeld⟩ := afterRefund
  subst refundedEq
  have burnBound : (if paid = true then row.eligibleBoosterAmount else 0) ≤
      (mod.claims claimId).boosterAmount := by
    split
    · exact bounded
    · exact Nat.zero_le _
  apply avoids_bind
  · exact resolveBoosters_avoids _ _ _ burnBound (inOrder.boostersHeld claimId filed unresolved)
  intro boosted boostedRun
  obtain ⟨erc1155, -, boostedEq⟩ := resolveBoosters_ok _ _ _ burnBound boostedRun
  subst boostedEq
  refine resolveClaimBond_avoids _ _ _ (setModule_self _) ?_ ?_
  · exact bondCounted
  · exact bondHeld

/-- A payment out of a pool is not a transfer of the module. -/
theorem payClaim_avoids (p recipient : Address) (amount : Nat)
    (apart : (w.pools p).isSome = true → p ≠ m) :
    Avoids (IsShortfall m) (w.callPool p m (.payClaim recipient amount)) := by
  unfold World.callPool
  apply avoids_bind
  · exact avoids_orRevert _ _ (fun _ => not_false)
  intro pool poolRun
  have notModule : p ≠ m := by
    apply apart
    rw [(getPool_ok_iff pool).mp poolRun]
    rfl
  apply avoids_bind
  · unfold PoolTx.exec
    apply avoids_revertIf_bind _ _ _ (fun _ => not_false)
    intro _
    dsimp only
    unfold PoolTx.payClaim
    apply avoids_revertIf_bind _ _ _ (fun _ => not_false)
    intro _
    apply avoids_revertIf_bind _ _ _ (fun _ => not_false)
    intro _
    apply avoids_revertIf_bind _ _ _ (fun _ => not_false)
    intro _
    apply avoids_ite
    · intro _
      exact avoids_pure _
    · intro _
      apply avoids_revertIf_bind _ _ _ (fun _ => not_false)
      intro within
      apply avoids_bind
      · apply avoids_checkedSub
        intro below
        exact absurd below within
      intro _ _
      apply avoids_bind
      · exact erc20Transfer_avoids _ _ _ _ _ (fun isModule => absurd isModule notModule)
      · intro _ _
        exact avoids_pure _
  · intro _ _
    exact avoids_pure _

theorem payProtocolFee_avoids (incidentId : Nat) (pool feeReceiver : Address) (protocolFee : Nat)
    (apart : (w.pools pool).isSome = true → pool ≠ m) :
    Avoids (IsShortfall m) (w.payProtocolFee m incidentId pool feeReceiver protocolFee) := by
  unfold World.payProtocolFee
  apply avoids_ite
  · intro _
    apply avoids_bind
    · exact payClaim_avoids pool feeReceiver protocolFee apart
    · intro _ _
      exact avoids_pure _
  · intro _
    exact avoids_pure _

/-- The gross amount is never below the net one. -/
theorem le_grossAmount (amount fee : Nat) (bounded : fee ≤ maxProtocolFeeBps) :
    amount ≤ amount * bpsDenominator / (bpsDenominator - fee) := by
  have limit : fee < bpsDenominator := lt_of_le_of_lt bounded (by decide)
  rw [Nat.le_div_iff_mul_le (by omega)]
  exact Nat.mul_le_mul_left amount (Nat.sub_le _ _)

theorem payClaimAmount_avoids (incidentId : Nat) (claimant feeReceiver : Address)
    (amounts : List Nat) (i : Nat) (present : w.modules m = some mod)
    (fee : (mod.incidents incidentId).protocolFeeShareBps ≤ maxProtocolFeeBps)
    (apart : ∀ p, (w.pools p).isSome = true → p ≠ m) :
    Avoids (IsShortfall m)
      (World.payClaimAmount m incidentId claimant feeReceiver amounts w i) := by
  unfold World.payClaimAmount
  apply avoids_bind
  · exact avoids_orRevert _ _ (fun _ => by simp [IsShortfall])
  intro amount _
  apply avoids_ite
  · intro _
    exact avoids_pure _
  intro _
  apply avoids_bind
  · exact avoids_orRevert _ _ (fun _ => not_false)
  intro found foundRun
  cases present.symm.trans ((getModule_ok_iff found).mp foundRun)
  have feeLimit : (mod.incidents incidentId).protocolFeeShareBps ≤ bpsDenominator :=
    fee.trans (by decide)
  apply avoids_bind
  · apply avoids_checkedSub
    intro below
    omega
  intro net netRun
  obtain ⟨-, netEq⟩ := (checkedSub_ok_iff _ _ _).mp netRun
  apply avoids_bind
  · exact avoids_mulDiv _ _ _ (by simp [panic_eq, IsShortfall]) (by simp [panic_eq, IsShortfall])
  intro gross grossRun
  obtain ⟨-, -, grossEq⟩ := (mulDiv_ok_iff _ _ _ _).mp grossRun
  apply avoids_bind
  · exact avoids_orRevert _ _ (fun _ => by simp [IsShortfall])
  intro remaining _
  apply avoids_revertIf_bind _ _ _ (fun _ => not_false)
  intro _
  apply avoids_bind
  · exact avoids_orRevert _ _ (fun _ => by simp [IsShortfall])
  intro pool _
  apply avoids_bind
  · exact payClaim_avoids pool claimant amount (apart pool)
  intro paid paidRun
  apply avoids_bind
  · apply avoids_checkedSub
    intro below
    rw [grossEq, netEq] at below
    exact absurd (le_grossAmount amount _ fee) (Nat.not_le.mpr below)
  intro protocolFee _
  apply payProtocolFee_avoids
  intro isPool
  apply apart pool
  obtain ⟨before, presentBefore, -⟩ := (payClaim_poolPaid claimant amount paidRun).pool
  change w.pools pool = some before at presentBefore
  rw [presentBefore]
  rfl

theorem payAccepted_avoids (incidentId : Nat) (claimant : Address) (row : PayoutRow)
    (present : w.modules m = some mod)
    (fee : (mod.incidents incidentId).protocolFeeShareBps ≤ maxProtocolFeeBps)
    (apart : ∀ p, (w.pools p).isSome = true → p ≠ m) :
    Avoids (IsShortfall m) (w.payAccepted platform m incidentId claimant row) := by
  unfold World.payAccepted World.payClaimAmounts
  apply avoids_bind
  · apply avoids_bind
    · exact avoids_orRevert _ _ (fun _ => not_false)
    intro found _
    refine avoids_foldlM _ (fun state => ∃ budget, Drawn m incidentId w state mod budget) ?_ ?_ _ w
      ⟨_, Drawn.refl present⟩
    · rintro state i after ⟨budget, drawn⟩ ran
      obtain ⟨amount, paid⟩ :=
        payClaimAmount_ok incidentId claimant _ row.amounts i _ drawn.stored ran
      exact drawn.amountPaid i amount paid
    · rintro state i ⟨budget, drawn⟩
      apply payClaimAmount_avoids incidentId claimant _ row.amounts i drawn.stored
      · rw [withBudget_incident]
        exact fee
      · intro p isPool
        rw [drawn.pools p] at isPool
        exact apart p isPool
  · intro paid _
    unfold World.spendScore
    apply avoids_ite
    · intro _
      apply avoids_bind
      · unfold Registry.recordScoreSpent
        apply avoids_revertIf_bind _ _ _ (fun _ => not_false)
        intro _
        apply avoids_bind _ _ (avoids_checkedAdd _ _ _ (by simp [panic_eq, IsShortfall]))
        intro _ _
        exact avoids_pure _
      · intro _ _
        exact avoids_pure _
    · intro _
      exact avoids_pure _

theorem settleRow_avoids (claimId : Nat) (acceptPayout : Bool) (row : PayoutRow)
    (proof : List Hash) (deployment : Deployment w) (present : w.modules m = some mod)
    (inOrder : ModuleInOrder m w mod) (filed : (mod.claims claimId).user ≠ Address.zero)
    (unresolved : (mod.claims claimId).resolved = false) :
    Avoids (IsShortfall m) (w.settleRow platform m sender mod claimId acceptPayout row proof) := by
  unfold World.settleRow
  apply avoids_bind
  · exact checkRow_avoids claimId acceptPayout row proof
  intro _ checkedRun
  have checked := checkRow_ok mod claimId acceptPayout row proof _ checkedRun
  apply avoids_bind
  · exact releaseClaim_avoids claimId _ row inOrder filed unresolved checked.boosters
  intro released releasedRun
  have release := releaseClaim_ok mod claimId _ row checked.boosters releasedRun
  have samePools := release.outflow.2.2.2.1
  have releasedPresent : released.modules m = some (releasedStorage mod claimId) := by
    obtain ⟨_, _, _, _, _, -, -, -, -, releasedEq⟩ := release.outcome
    rw [releasedEq]
    exact setModule_self _
  apply avoids_bind
  · apply avoids_ite
    · intro _
      apply payAccepted_avoids _ _ row releasedPresent (inOrder.fees _)
      rintro p isPool rfl
      rw [samePools, deployment.apart p (by rw [present]; rfl)] at isPool
      cases isPool
    · intro _
      exact avoids_pure _
  intro paid paidRun
  obtain ⟨budget, drawn⟩ : ∃ budget, Drawn m (mod.claims claimId).incidentId released paid
      (releasedStorage mod claimId) budget := by
    rcases (ite_ok_iff _ _ _ _).mp paidRun with ⟨-, ran⟩ | ⟨-, same⟩
    · exact payAccepted_drawn _ row releasedPresent ran
    · rw [← (pure_ok_iff _ _).mp same]
      exact ⟨_, Drawn.refl releasedPresent⟩
  unfold World.closeClaim
  apply avoids_bind
  · exact avoids_orRevert _ _ (fun _ => not_false)
  intro found foundRun
  cases drawn.stored.symm.trans ((getModule_ok_iff found).mp foundRun)
  have claimEq : (withBudget (releasedStorage mod claimId) (mod.claims claimId).incidentId
      budget).claims claimId = { mod.claims claimId with resolved := true } :=
    Function.update_self ..
  obtain ⟨-, -, counted⟩ := inOrder.book.covers claimId filed unresolved
  apply avoids_bind
  · apply avoids_checkedSub
    intro below
    rw [claimEq] at below
    dsimp only at below
    rw [withBudget_incident] at below
    exact absurd counted (Nat.not_le.mpr below)
  · intro _ _
    exact avoids_pure _

theorem finalizeClaim_avoids (claimId : Nat) (acceptPayout : Bool) (row : PayoutRow)
    (proof : List Hash) (deployment : Deployment w) (present : w.modules m = some mod)
    (inOrder : ModuleInOrder m w mod) :
    Avoids (IsShortfall m)
      (w.finalizeClaim platform m sender claimId acceptPayout row proof) := by
  unfold World.finalizeClaim
  apply avoids_bind
  · exact avoids_orRevert _ _ (fun _ => not_false)
  intro found foundRun
  cases present.symm.trans ((getModule_ok_iff found).mp foundRun)
  apply avoids_revertIf_bind _ _ _ (fun _ => not_false)
  intro filed
  apply avoids_revertIf_bind _ _ _ (fun _ => not_false)
  intro resolved
  have unresolved : (mod.claims claimId).resolved = false := by simpa using resolved
  apply avoids_ite
  · intro _
    exact recoverClaim_avoids claimId acceptPayout inOrder filed unresolved
  · intro _
    exact settleRow_avoids claimId acceptPayout row proof deployment present inOrder filed
      unresolved

end Finalizing

/-! ## Solvency -/

section Solvency

variable {platform : Platform} {m : Address} {w : World} {mod : DefiInsurance}

/-- Every counter of a module is the sum over its unresolved claims, the module holds
at least its counters, no refund is short of funds and no sweep takes escrow. -/
theorem module_escrow_solvent (reachable : Reachable platform w)
    (present : w.modules m = some mod) :
    let live := liveClaims mod.claims mod.nextClaimId
    let escrow := fun token => mod.escrowedInsuredTokens token +
      if token = w.registry.usd8 then mod.escrowedClaimBonds else 0
    (∀ id, id ∈ live ↔ (mod.claims id).user ≠ Address.zero ∧ (mod.claims id).resolved = false) ∧
      (∀ token, mod.escrowedInsuredTokens token = ∑ id ∈ live,
        if (mod.incidents (mod.claims id).incidentId).insuredToken = token
          then (mod.claims id).insuredTokenAmount else 0) ∧
      mod.escrowedClaimBonds = ∑ id ∈ live, (mod.claims id).bondAmount ∧
      ∑ id ∈ live, (mod.claims id).boosterAmount ≤
        w.erc1155 w.registry.boosterConfig.collection w.registry.boosterConfig.tokenId m ∧
      (∀ incidentId, (mod.incidents incidentId).unresolvedClaims =
        (live.filter fun id => (mod.claims id).incidentId = incidentId).card) ∧
      (∀ token, escrow token ≤ w.erc20 token m) ∧
      (∀ sender, Avoids (IsShortfall m) (w.cancelClaim platform m sender)) ∧
      (∀ sender claimId acceptPayout row proof, Avoids (IsShortfall m)
        (w.finalizeClaim platform m sender claimId acceptPayout row proof)) ∧
      ∀ sender token recipient next,
        w.sweepModuleToken m sender token recipient = .ok next →
        ∀ other, escrow other ≤ next.erc20 other m := by
  have inOrder := reachable_moduleInOrder reachable present
  have deployment := reachable_deployment reachable
  refine ⟨?_, inOrder.book.tokens, inOrder.book.bonds, inOrder.backed.boosters, ?_,
    inOrder.backed.tokens, fun sender => cancelClaim_avoids present inOrder,
    fun sender claimId acceptPayout row proof =>
      finalizeClaim_avoids claimId acceptPayout row proof deployment present inOrder, ?_⟩
  · intro id
    rw [mem_liveClaims_iff]
    exact ⟨And.right, fun live => ⟨(inOrder.book.inside live.1).2, live⟩⟩
  · intro incidentId
    rw [inOrder.book.counts incidentId, Finset.card_filter]
    rfl
  · intro sender token recipient next run
    obtain ⟨amount, swept⟩ := sweepModuleToken_ok token recipient run
    exact (inOrder.swept present swept).1

/-- Both claims of the small deployment are live: 700 tokens and two bonds are held. -/
theorem smallDeployment_escrow_solvent :
    ∃ w mod, Reachable SmallDeployment.platform w ∧
      w.modules SmallDeployment.module = some mod ∧
      mod.escrowedInsuredTokens SmallDeployment.insuredToken = 700 ∧
      (mod.incidents 1).unresolvedClaims = 2 ∧
      ∀ sender, Avoids (IsShortfall SmallDeployment.module)
        (w.cancelClaim SmallDeployment.platform SmallDeployment.module sender) := by
  obtain ⟨steps, w, run, checked⟩ := SmallDeployment.reaches
    (SmallDeployment.stake ++ SmallDeployment.claim)
    (fun w => (w.modules SmallDeployment.module).any fun mod =>
      mod.escrowedInsuredTokens SmallDeployment.insuredToken == 700 &&
        (mod.incidents 1).unresolvedClaims == 2)
    (by decide +kernel)
  obtain ⟨mod, present, counters⟩ := (Option.any_eq_true _ _).mp checked
  simp only [Bool.and_eq_true, beq_iff_eq] at counters
  exact ⟨w, mod, run.reachable, present, counters.1, counters.2,
    (module_escrow_solvent run.reachable present).2.2.2.2.2.2.1⟩

end Solvency

end Usd8Core.Insurance
