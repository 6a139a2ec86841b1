import Usd8Core.Insurance.ModuleView

/-!
# Escrow solvency of the insurance module

The books of a module are right and its balances cover them, in every reachable
world.  USD8 and the booster collection are each set once; before that no bond
and no booster can be pulled, so the change finds nothing to cover.
-/

set_option autoImplicit false

namespace Usd8Core.Insurance

open Usd8Core.Lib.ByteWords
open Usd8Core.Lib.CheckedCall
open Usd8Core.Chain
open Usd8Core.Pool

/-- The balances of the module cover what its unresolved claims have escrowed. -/
structure Backed (m : Address) (w : World) (mod : DefiInsurance) : Prop where
  tokens : ∀ token, escrowOf w.registry mod token ≤ w.erc20 token m
  boosters : liveSum mod.claims mod.nextClaimId Claim.boosterAmount ≤
    w.erc1155 w.registry.boosterConfig.collection w.registry.boosterConfig.tokenId m
  firstClaim : 1 ≤ mod.nextClaimId
  noUsd8 : w.registry.usd8 = Address.zero → mod.nextClaimId = 1
  noCollection : w.registry.boosterConfig.collection = Address.zero →
    liveSum mod.claims mod.nextClaimId Claim.boosterAmount = 0

structure ModuleInOrder (m : Address) (w : World) (mod : DefiInsurance) : Prop where
  book : EscrowBook mod
  backed : Backed m w mod
  fees : ∀ id, (mod.incidents id).protocolFeeShareBps ≤ maxProtocolFeeBps

/-- Only the recorded scores of the Registry may differ. -/
def SameSettings (w next : World) : Prop :=
  next.registry = { w.registry with scoreSpent := next.registry.scoreSpent }

section Backing

variable {platform : Platform} {m sender : Address} {w next : World} {mod after : DefiInsurance}

theorem SameSettings.usd8 (same : SameSettings w next) :
    next.registry.usd8 = w.registry.usd8 := by rw [same]

theorem SameSettings.boosterConfig (same : SameSettings w next) :
    next.registry.boosterConfig = w.registry.boosterConfig := by rw [same]

theorem SameSettings.ofSame (same : next.registry = w.registry) : SameSettings w next := by
  rw [SameSettings, same]

/-- Without a claim nothing is live. -/
theorem EscrowBook.nothingLive (book : EscrowBook mod) (first : mod.nextClaimId = 1)
    (weight : Claim → Nat) : liveSum mod.claims mod.nextClaimId weight = 0 := by
  apply Finset.sum_eq_zero
  intro id member
  obtain ⟨inside, live⟩ := (mem_liveClaims_iff id).mp member
  have zero : id = 0 := by omega
  exact absurd (book.unfiled id (Or.inl zero)) live.1

/-- USD8 and the booster collection change only while they are unset. -/
theorem RegistryMoved.settings (moved : RegistryMoved w next) :
    (next.registry.usd8 = w.registry.usd8 ∨ w.registry.usd8 = Address.zero) ∧
      (next.registry.boosterConfig = w.registry.boosterConfig ∨
        w.registry.boosterConfig.collection = Address.zero) := by
  cases moved with
  | scored same => exact ⟨Or.inl (by rw [same]), Or.inl (by rw [same])⟩
  | called sender call run =>
      have step := registry_exec_step call run
      exact ⟨step.usd8, step.boosters⟩

/-- Steps of others: the module's storage is the same and its balances did not shrink. -/
theorem Backed.bystander (book : EscrowBook mod) (backed : Backed m w mod)
    (richer : Richer m w next) (moved : RegistryMoved w next) : Backed m next mod := by
  obtain ⟨usd8, boosterConfig⟩ := moved.settings
  refine ⟨?_, ?_, backed.firstClaim, ?_, ?_⟩
  · intro token
    refine le_trans ?_ ((backed.tokens token).trans (richer.tokens token))
    unfold escrowOf
    rcases usd8 with same | unset
    · rw [same]
    · have noBonds : mod.escrowedClaimBonds = 0 := by
        rw [book.bonds]
        exact book.nothingLive (backed.noUsd8 unset) _
      rw [noBonds, ite_self, ite_self]
  · rcases boosterConfig with same | unset
    · rw [same]
      exact backed.boosters.trans (richer.boosters _ _)
    · rw [backed.noCollection unset]
      exact Nat.zero_le _
  · intro unset
    rcases usd8 with same | wasUnset
    · exact backed.noUsd8 (by rw [← same]; exact unset)
    · exact backed.noUsd8 wasUnset
  · intro unset
    rcases boosterConfig with same | wasUnset
    · exact backed.noCollection (by rw [← same]; exact unset)
    · exact backed.noCollection wasUnset

/-- A write of the module's own storage that leaves the claims and counters alone. -/
theorem Backed.ofCounters (backed : Backed m w mod) (claims : after.claims = mod.claims)
    (nextClaimId : after.nextClaimId = mod.nextClaimId)
    (escrowed : after.escrowedInsuredTokens = mod.escrowedInsuredTokens)
    (bonds : after.escrowedClaimBonds = mod.escrowedClaimBonds)
    (registry : next.registry = w.registry)
    (tokens : ∀ token, escrowOf w.registry mod token ≤ next.erc20 token m)
    (boosters : next.erc1155 = w.erc1155) : Backed m next after := by
  have sameEscrow : ∀ token, escrowOf next.registry after token = escrowOf w.registry mod token := by
    intro token
    rw [escrowOf, escrowOf, registry, escrowed, bonds]
  refine ⟨?_, ?_, ?_, ?_, ?_⟩
  · intro token
    rw [sameEscrow]
    exact tokens token
  · rw [registry, claims, nextClaimId, boosters]
    exact backed.boosters
  · rw [nextClaimId]
    exact backed.firstClaim
  · rw [registry, nextClaimId]
    exact backed.noUsd8
  · rw [registry, claims, nextClaimId]
    exact backed.noCollection

/-- A claim filed: its tokens, its bond and its boosters came in with it. -/
theorem Backed.registered {token : Address} {incidentId escrow scoreToSpend boosterAmount : Nat}
    (backed : Backed m w mod) (notZero : sender ≠ Address.zero) (notSender : m ≠ sender)
    (done : Registered platform m sender w next mod token incidentId escrow scoreToSpend
      boosterAmount) :
    Backed m next (World.registeredModule platform mod incidentId sender token escrow
      mod.claimBondAmount scoreToSpend boosterAmount) := by
  obtain ⟨amount, pulled, bonded, erc1155, pulledRun, received, bondedRun, boosters, nextEq⟩ :=
    done.outcome
  have filed : ∀ weight, liveSum (World.registeredModule platform mod incidentId sender token
      escrow mod.claimBondAmount scoreToSpend boosterAmount).claims (mod.nextClaimId + 1) weight =
      liveSum mod.claims mod.nextClaimId weight +
        weight ⟨sender, incidentId, escrow, boosterAmount, mod.claimBondAmount, false⟩ :=
    fun weight => liveSum_filed mod.claims mod.nextClaimId _ ⟨notZero, rfl⟩ weight
  have usd8Set : w.registry.usd8 ≠ Address.zero := ((erc20Transfer_ok_iff ..).mp bondedRun).1
  subst nextEq
  refine ⟨?_, ?_, Nat.le_add_left 1 _, fun unset => absurd unset usd8Set, ?_⟩
  · intro other
    have covered := backed.tokens other
    have pulledIn := erc20Transfer_credit _ _ _ _ _ _ pulledRun notSender other
    have bondIn := erc20Transfer_credit _ _ _ _ _ _ bondedRun notSender other
    have escrowEq : pulled token m = w.erc20 token m + amount := by
      have own := erc20Transfer_credit _ _ _ _ _ _ pulledRun notSender token
      rw [if_pos rfl] at own
      exact own
    change Function.update mod.escrowedInsuredTokens token _ other +
      (if other = w.registry.usd8 then _ + mod.claimBondAmount else 0) ≤ bonded other m
    unfold escrowOf at covered
    by_cases sameToken : other = token
    · subst sameToken
      rw [if_pos rfl] at pulledIn
      rw [Function.update_self]
      by_cases isUsd8 : other = w.registry.usd8
      · rw [if_pos isUsd8] at covered bondIn ⊢
        omega
      · rw [if_neg isUsd8] at covered bondIn ⊢
        omega
    · rw [if_neg sameToken] at pulledIn
      rw [Function.update_of_ne sameToken]
      by_cases isUsd8 : other = w.registry.usd8
      · rw [if_pos isUsd8] at covered bondIn ⊢
        omega
      · rw [if_neg isUsd8] at covered bondIn ⊢
        omega
  · change liveSum _ (mod.nextClaimId + 1) Claim.boosterAmount ≤ erc1155 _ _ m
    rw [filed]
    have held := backed.boosters
    rcases boosters with ⟨none, same⟩ | ⟨-, transferred⟩
    · rw [same, none]
      exact held
    · obtain ⟨-, -, -, erc1155Eq⟩ := (erc1155Transfer_ok_iff ..).mp transferred
      have credited : erc1155 w.registry.boosterConfig.collection
          w.registry.boosterConfig.tokenId m = w.erc1155 w.registry.boosterConfig.collection
          w.registry.boosterConfig.tokenId m + boosterAmount := by
        rw [erc1155Eq, Function.update_self, Function.update_self]
        exact Lib.FiniteLedger.moveBalance_payee _ _ _ _ notSender
      change _ ≤ erc1155 w.registry.boosterConfig.collection w.registry.boosterConfig.tokenId m
      rw [credited]
      exact Nat.add_le_add_right held boosterAmount
  · intro unset
    change liveSum _ (mod.nextClaimId + 1) Claim.boosterAmount = 0
    rw [filed, backed.noCollection unset]
    rcases boosters with ⟨none, -⟩ | ⟨-, transferred⟩
    · exact (Nat.zero_add _).trans none
    · exact absurd unset ((erc1155Transfer_ok_iff ..).mp transferred).1

/-- A claim resolved: no more left the module than the claim had put in. -/
theorem Backed.resolved {claimId : Nat} (book : EscrowBook mod) (backed : Backed m w mod)
    (done : ClaimResolved mod after claimId) (settings : SameSettings w next)
    (tokens : ∀ token, w.erc20 token m ≤ next.erc20 token m +
      (if token = (mod.incidents (mod.claims claimId).incidentId).insuredToken
        then (mod.claims claimId).insuredTokenAmount else 0) +
      (if token = w.registry.usd8 then (mod.claims claimId).bondAmount else 0))
    (boosters : w.erc1155 w.registry.boosterConfig.collection w.registry.boosterConfig.tokenId m ≤
      next.erc1155 w.registry.boosterConfig.collection w.registry.boosterConfig.tokenId m +
        (mod.claims claimId).boosterAmount) :
    Backed m next after := by
  have live : IsLive (mod.claims claimId) := ⟨done.filed, done.unresolved⟩
  have left : liveSum after.claims after.nextClaimId Claim.boosterAmount +
      (mod.claims claimId).boosterAmount =
      liveSum mod.claims mod.nextClaimId Claim.boosterAmount := by
    rw [done.claims, done.nextClaimId]
    exact liveSum_resolved mod.claims mod.nextClaimId claimId (book.inside done.filed).2 live _
  obtain ⟨tokensHeld, bondHeld, -⟩ := book.covers claimId done.filed done.unresolved
  refine ⟨?_, ?_, ?_, ?_, ?_⟩
  · intro token
    have covered := backed.tokens token
    have kept := tokens token
    unfold escrowOf at covered ⊢
    rw [settings.usd8, done.bonds, done.escrowed]
    by_cases sameToken : token =
        (mod.incidents (mod.claims claimId).incidentId).insuredToken
    · rw [if_pos sameToken] at kept
      rw [sameToken, Function.update_self, ← sameToken]
      rw [← sameToken] at tokensHeld
      by_cases isUsd8 : token = w.registry.usd8
      · rw [if_pos isUsd8] at covered kept ⊢
        omega
      · rw [if_neg isUsd8] at covered kept ⊢
        omega
    · rw [if_neg sameToken] at kept
      rw [Function.update_of_ne sameToken]
      by_cases isUsd8 : token = w.registry.usd8
      · rw [if_pos isUsd8] at covered kept ⊢
        omega
      · rw [if_neg isUsd8] at covered kept ⊢
        omega
  · have held := backed.boosters
    rw [settings.boosterConfig]
    omega
  · rw [done.nextClaimId]
    exact backed.firstClaim
  · rw [settings.usd8, done.nextClaimId]
    exact backed.noUsd8
  · intro unset
    rw [settings.boosterConfig] at unset
    have nothing := backed.noCollection unset
    omega

end Backing

/-! ## Every call of the module -/

section Calls

variable {platform : Platform} {m sender : Address} {w next : World} {mod after : DefiInsurance}

/-- Both transfers of a full refund together. -/
theorem Refunded.outflow {base : DefiInsurance} {claim : Claim} {token recipient : Address}
    {erc20 : Erc20} {erc1155 : Erc1155}
    (refunded : Refunded m w base claim token recipient erc20 erc1155) (other : Address) :
    w.erc20 other m ≤ erc20 other m + (if other = token then claim.insuredTokenAmount else 0) +
      (if other = w.registry.usd8 then claim.bondAmount else 0) := by
  obtain ⟨bonded, bondRun, tokenRun⟩ := refunded.moved
  have bondOut := erc20Transfer_outflow _ _ _ _ _ _ bondRun other
  have tokenOut := erc20Transfer_outflow _ _ _ _ _ _ tokenRun other
  omega

theorem cancelledModule_incident (platform : Platform) (mod : DefiInsurance) (incidentId claimId : Nat)
    (sender : Address) (unresolved : Nat) :
    (World.cancelledModule platform mod incidentId claimId sender unresolved).incidents
        incidentId =
      { mod.incidents incidentId with
        unresolvedClaims := unresolved
        claimSetHash := claimCancelHash platform (mod.incidents incidentId).claimSetHash claimId } :=
  Function.update_self ..

theorem Cancelled.resolves {incidentId claimId : Nat} (book : EscrowBook mod)
    (done : Cancelled platform m sender w next mod incidentId claimId) :
    ClaimResolved mod (refundedModule (World.cancelledModule platform mod incidentId claimId
      sender ((mod.incidents incidentId).unresolvedClaims - 1)) (mod.claims claimId)
      (mod.incidents incidentId).insuredToken) claimId := by
  have claimed : mod.claimIdByIncidentAndUser incidentId sender ≠ 0 := by
    rw [done.claimOfSender]
    exact done.claimNotZero
  obtain ⟨sameUser, notZero, sameIncident⟩ := book.claimOf incidentId sender claimed
  rw [done.claimOfSender] at sameUser sameIncident
  have written := cancelledModule_incident platform mod incidentId claimId sender
    ((mod.incidents incidentId).unresolvedClaims - 1)
  have others : ∀ id, id ≠ incidentId → (World.cancelledModule platform mod incidentId claimId
      sender ((mod.incidents incidentId).unresolvedClaims - 1)).incidents id =
      mod.incidents id := fun id differ => Function.update_of_ne differ ..
  refine ⟨by rw [sameUser]; exact notZero, done.unresolved, rfl, rfl, rfl, ?_, ?_, rfl, ?_, ?_, ?_⟩
  · intro other user
    change Function.update mod.claimIdByIncidentAndUser incidentId _ other user = 0 ∨
      Function.update mod.claimIdByIncidentAndUser incidentId _ other user = _
    by_cases sameOther : other = incidentId
    · subst sameOther
      rw [Function.update_self]
      by_cases isSender : user = sender
      · subst isSender
        exact Or.inl (Function.update_self ..)
      · exact Or.inr (Function.update_of_ne isSender ..)
    · exact Or.inr (by rw [Function.update_of_ne sameOther])
  · rw [sameIncident]
    rfl
  · intro id
    by_cases same : id = incidentId
    · subst same
      exact (congrArg Incident.insuredToken written).trans rfl
    · exact congrArg Incident.insuredToken (others id same)
  · intro id differ
    rw [sameIncident] at differ
    exact others id differ
  · rw [sameIncident]
    exact congrArg Incident.unresolvedClaims written

theorem recoveredBase_incident (mod : DefiInsurance) (claimId now : Nat) :
    (recoveredBase mod claimId now).incidents (mod.claims claimId).incidentId =
      World.closedIncident (mod.incidents (mod.claims claimId).incidentId)
        ((mod.incidents (mod.claims claimId).incidentId).unresolvedClaims - 1) now :=
  Function.update_self ..

theorem Recovered.resolves {claimId : Nat} (done : Recovered m sender w next mod claimId) :
    ClaimResolved mod (refundedModule (recoveredBase mod claimId w.now) (mod.claims claimId)
      (mod.incidents (mod.claims claimId).incidentId).insuredToken) claimId := by
  have others : ∀ id, id ≠ (mod.claims claimId).incidentId →
      (recoveredBase mod claimId w.now).incidents id = mod.incidents id :=
    fun id differ => Function.update_of_ne differ ..
  refine ⟨done.filed, done.unresolved, rfl, rfl, rfl, fun _ _ => Or.inr rfl, rfl, rfl, ?_, others,
    congrArg Incident.unresolvedClaims (recoveredBase_incident mod claimId w.now)⟩
  intro id
  by_cases same : id = (mod.claims claimId).incidentId
  · subst same
    exact (congrArg Incident.insuredToken (recoveredBase_incident mod claimId w.now)).trans rfl
  · exact congrArg Incident.insuredToken (others id same)

theorem finalizedStorage_incident (mod : DefiInsurance) (claimId now : Nat) (budget : List Nat) :
    (finalizedStorage mod claimId now budget).incidents (mod.claims claimId).incidentId =
      World.closedIncident
        { mod.incidents (mod.claims claimId).incidentId with poolBudget := budget }
        ((mod.incidents (mod.claims claimId).incidentId).unresolvedClaims - 1) now :=
  Function.update_self ..

theorem finalizedStorage_resolves {claimId : Nat} (now : Nat) (budget : List Nat)
    (filed : (mod.claims claimId).user ≠ Address.zero)
    (unresolved : (mod.claims claimId).resolved = false) :
    ClaimResolved mod (finalizedStorage mod claimId now budget) claimId := by
  have others : ∀ id, id ≠ (mod.claims claimId).incidentId →
      (finalizedStorage mod claimId now budget).incidents id = mod.incidents id :=
    fun id differ => Function.update_of_ne differ ..
  refine ⟨filed, unresolved, rfl, rfl, rfl, fun _ _ => Or.inr rfl, rfl, rfl, ?_, others,
    congrArg Incident.unresolvedClaims (finalizedStorage_incident mod claimId now budget)⟩
  intro id
  by_cases same : id = (mod.claims claimId).incidentId
  · subst same
    exact (congrArg Incident.insuredToken (finalizedStorage_incident mod claimId now budget)).trans rfl
  · exact congrArg Incident.insuredToken (others id same)

/-- The release of a finalized claim. -/
theorem Released.outflow {released : World} {claimId : Nat} {row : PayoutRow}
    (release : Released m w released mod claimId row) :
    (∀ other, w.erc20 other m ≤ released.erc20 other m +
      (if other = (mod.incidents (mod.claims claimId).incidentId).insuredToken
        then (mod.claims claimId).insuredTokenAmount else 0) +
      (if other = w.registry.usd8 then (mod.claims claimId).bondAmount else 0)) ∧
    w.erc1155 w.registry.boosterConfig.collection w.registry.boosterConfig.tokenId m ≤
      released.erc1155 w.registry.boosterConfig.collection w.registry.boosterConfig.tokenId m +
        (mod.claims claimId).boosterAmount ∧
    released.registry = w.registry ∧ released.pools = w.pools ∧ released.block = w.block := by
  obtain ⟨refund, recipient, refunded, erc20, erc1155, refundLe, moved, bondRun, boosters,
    releasedEq⟩ := release.outcome
  subst releasedEq
  refine ⟨?_, boosters.held, rfl, rfl, rfl⟩
  intro other
  have bondOut := erc20Transfer_outflow _ _ _ _ _ _ bondRun other
  have tokenOut : w.erc20 other m ≤ refunded other m +
      (if other = (mod.incidents (mod.claims claimId).incidentId).insuredToken
        then (mod.claims claimId).insuredTokenAmount else 0) := by
    rcases moved with ⟨-, same⟩ | ran
    · rw [same]
      exact Nat.le_add_right _ _
    · refine (erc20Transfer_outflow _ _ _ _ _ _ ran other).trans ?_
      gcongr
      split
      · exact refundLe
      · exact le_rfl
  change _ ≤ erc20 other m + _ + _
  omega

theorem Stored.frame (stored : Stored m w next after) :
    next.modules m = some after ∧ next.registry = w.registry ∧ next.erc20 = w.erc20 ∧
      next.erc1155 = w.erc1155 := by
  rcases stored with nextEq | ⟨token, nextEq⟩
  · subst nextEq
    exact ⟨setModule_self _, rfl, rfl, rfl⟩
  · subst nextEq
    exact ⟨setModule_self _, rfl, rfl, rfl⟩

/-- A write that keeps the claims, their counters and every fee. -/
theorem ModuleInOrder.stored {stored : World} (inOrder : ModuleInOrder m w mod)
    (book : EscrowBook after) (same : SameClaims mod after ∨ ∃ incidentId incident,
      SameClaims (mod.setIncident incidentId incident) after ∧
        incident.protocolFeeShareBps = (mod.incidents incidentId).protocolFeeShareBps)
    (written : Stored m w stored after) (emitted : next.modules m = stored.modules m)
    (registry : next.registry = stored.registry) (erc20 : next.erc20 = stored.erc20)
    (erc1155 : next.erc1155 = stored.erc1155) :
    next.modules m = some after ∧ ModuleInOrder m next after := by
  obtain ⟨modules, storedRegistry, storedErc20, storedErc1155⟩ := written.frame
  have tokens : ∀ token, escrowOf w.registry mod token ≤ next.erc20 token m := by
    intro token
    rw [erc20, storedErc20]
    exact inOrder.backed.tokens token
  refine ⟨emitted.trans modules, book, ?_, ?_⟩
  · rcases same with same | ⟨incidentId, incident, same, -⟩
    · exact inOrder.backed.ofCounters same.claims same.nextClaimId same.escrowed same.bonds
        (registry.trans storedRegistry) tokens (erc1155.trans storedErc1155)
    · exact inOrder.backed.ofCounters same.claims same.nextClaimId same.escrowed same.bonds
        (registry.trans storedRegistry) tokens (erc1155.trans storedErc1155)
  · intro id
    rcases same with same | ⟨incidentId, incident, same, sameFee⟩
    · rw [same.incidents]
      exact inOrder.fees id
    · rw [same.incidents]
      by_cases isWritten : id = incidentId
      · subst isWritten
        refine le_trans (le_of_eq ?_) (inOrder.fees id)
        exact (congrArg Incident.protocolFeeShareBps (Function.update_self ..)).trans sameFee
      · refine le_trans (le_of_eq ?_) (inOrder.fees id)
        exact congrArg Incident.protocolFeeShareBps (Function.update_of_ne isWritten ..)

theorem ModuleInOrder.opened {token : Address} {referenceBlock claimDeadline : Nat}
    {teePcrHash : Hash} (inOrder : ModuleInOrder m w mod)
    (fee : w.registry.protocolFeeConfig.claimProtocolFeeShareBps ≤ maxProtocolFeeBps)
    (done : Opened m w next mod token referenceBlock claimDeadline teePcrHash) :
    next.modules m = some (World.openedModule mod token w.block w.registry referenceBlock
        claimDeadline teePcrHash) ∧
      next.registry = w.registry ∧
      ModuleInOrder m next (World.openedModule mod token w.block w.registry referenceBlock
        claimDeadline teePcrHash) := by
  obtain ⟨settled, -, only, nextEq⟩ := done.outcome
  subst nextEq
  refine ⟨setModule_self _, only.registry, inOrder.book.opened token w.block w.registry
    referenceBlock claimDeadline teePcrHash, ?_, ?_⟩
  · refine inOrder.backed.ofCounters ?_ ?_ ?_ ?_ only.registry ?_ only.erc1155
    iterate 4 rfl
    intro other
    refine (inOrder.backed.tokens other).trans (le_of_eq ?_)
    exact (congrFun (congrFun only.erc20 other) m).symm
  · intro id
    by_cases fresh : id = mod.nextIncidentId
    · subst fresh
      refine le_trans (le_of_eq ?_) fee
      exact (congrArg Incident.protocolFeeShareBps (Function.update_self ..)).trans rfl
    · refine le_trans (le_of_eq ?_) (inOrder.fees id)
      exact congrArg Incident.protocolFeeShareBps (Function.update_of_ne fresh ..)

theorem registeredModule_incident (mod : DefiInsurance) (incidentId : Nat)
    (sender token : Address) (escrow bondAmount scoreToSpend boosterAmount : Nat) :
    (World.registeredModule platform mod incidentId sender token escrow bondAmount scoreToSpend
      boosterAmount).incidents incidentId =
      { mod.incidents incidentId with
        unresolvedClaims := (mod.incidents incidentId).unresolvedClaims + 1
        claimSetHash := claimJoinHash platform (mod.incidents incidentId).claimSetHash
          mod.nextClaimId sender escrow scoreToSpend boosterAmount } := Function.update_self ..

theorem registeredModule_other (mod : DefiInsurance) (incidentId id : Nat)
    (sender token : Address) (escrow bondAmount scoreToSpend boosterAmount : Nat)
    (differ : id ≠ incidentId) :
    (World.registeredModule platform mod incidentId sender token escrow bondAmount scoreToSpend
      boosterAmount).incidents id = mod.incidents id := Function.update_of_ne differ ..

theorem ModuleInOrder.registered {token : Address}
    {incidentId escrow scoreToSpend boosterAmount : Nat} (inOrder : ModuleInOrder m w mod)
    (notZero : sender ≠ Address.zero) (notSender : m ≠ sender) (positive : 1 ≤ incidentId)
    (opened : incidentId < mod.nextIncidentId)
    (sameToken : (mod.incidents incidentId).insuredToken = token)
    (done : Registered platform m sender w next mod token incidentId escrow scoreToSpend
      boosterAmount) :
    next.modules m = some (World.registeredModule platform mod incidentId sender token escrow
        mod.claimBondAmount scoreToSpend boosterAmount) ∧
      ModuleInOrder m next (World.registeredModule platform mod incidentId sender token escrow
        mod.claimBondAmount scoreToSpend boosterAmount) := by
  have backed := inOrder.backed.registered notZero notSender done
  have book := inOrder.book.registered platform incidentId sender token escrow mod.claimBondAmount
    scoreToSpend boosterAmount notZero positive opened inOrder.backed.firstClaim sameToken
  refine ⟨?_, book, backed, ?_⟩
  · obtain ⟨amount, pulled, bonded, erc1155, -, -, -, -, nextEq⟩ := done.outcome
    subst nextEq
    exact setModule_self _
  · intro id
    by_cases same : id = incidentId
    · subst same
      rw [registeredModule_incident]
      exact inOrder.fees id
    · rw [registeredModule_other _ _ _ _ _ _ _ _ _ same]
      exact inOrder.fees id

/-- The active incident was opened. -/
theorem active_opened (now : Nat) (notZero : mod.activeIncidentId now ≠ 0) :
    mod.activeIncidentId now = mod.nextIncidentId - 1 ∧ 1 < mod.nextIncidentId := by
  unfold DefiInsurance.activeIncidentId at notZero ⊢
  dsimp only at notZero ⊢
  split at notZero
  · exact absurd rfl notZero
  · rename_i positive
    rw [if_neg positive]
    refine ⟨?_, by omega⟩
    split at notZero
    · rw [if_pos ‹_›]
    · rw [if_neg ‹_›]
      split at notZero
      · exact absurd rfl notZero
      · rw [if_neg ‹_›]
        split at notZero
        · rw [if_pos ‹_›]
        · exact absurd rfl notZero

end Calls

/-! ## Every step of the system -/

section Steps

variable {platform : Platform} {m sender : Address} {w next : World} {mod after : DefiInsurance}

/-- A claim that leaves the books, with the fees of all incidents kept. -/
theorem ModuleInOrder.resolved {claimId : Nat} (inOrder : ModuleInOrder m w mod)
    (done : ClaimResolved mod after claimId) (backed : Backed m next after)
    (fee : (after.incidents (mod.claims claimId).incidentId).protocolFeeShareBps =
      (mod.incidents (mod.claims claimId).incidentId).protocolFeeShareBps) :
    ModuleInOrder m next after := by
  refine ⟨inOrder.book.resolved claimId done, backed, ?_⟩
  intro id
  by_cases same : id = (mod.claims claimId).incidentId
  · rw [same, fee]
    exact inOrder.fees _
  · rw [done.otherIncident id same]
    exact inOrder.fees id

theorem ModuleInOrder.cancelled {incidentId claimId : Nat} (inOrder : ModuleInOrder m w mod)
    (done : Cancelled platform m sender w next mod incidentId claimId) :
    ∃ after, next.modules m = some after ∧ ModuleInOrder m next after := by
  have resolves := done.resolves inOrder.book
  have claimed : mod.claimIdByIncidentAndUser incidentId sender ≠ 0 := by
    rw [done.claimOfSender]
    exact done.claimNotZero
  have sameIncident := (inOrder.book.claimOf incidentId sender claimed).2.2
  rw [done.claimOfSender] at sameIncident
  obtain ⟨base, erc20, erc1155, baseEq, refunded, nextEq⟩ := done.outcome
  subst baseEq nextEq
  refine ⟨_, setModule_self _, inOrder.resolved resolves ?_ ?_⟩
  · refine inOrder.backed.resolved inOrder.book resolves ?_ ?_ refunded.boosters.held
    · exact SameSettings.ofSame rfl
    · intro other
      rw [sameIncident]
      exact refunded.outflow other
  · rw [sameIncident]
    exact (congrArg Incident.protocolFeeShareBps (cancelledModule_incident platform mod incidentId
      claimId sender ((mod.incidents incidentId).unresolvedClaims - 1))).trans rfl

theorem ModuleInOrder.recovered {claimId : Nat} (inOrder : ModuleInOrder m w mod)
    (done : Recovered m sender w next mod claimId) :
    ∃ after, next.modules m = some after ∧ ModuleInOrder m next after := by
  have resolves := done.resolves
  obtain ⟨erc20, erc1155, refunded, nextEq⟩ := done.outcome
  subst nextEq
  refine ⟨_, setModule_self _, inOrder.resolved resolves ?_ ?_⟩
  · exact inOrder.backed.resolved inOrder.book resolves (SameSettings.ofSame rfl) refunded.outflow
      refunded.boosters.held
  · exact (congrArg Incident.protocolFeeShareBps
      (recoveredBase_incident mod claimId w.now)).trans rfl

theorem ModuleInOrder.finalized {claimId : Nat} {acceptPayout : Bool} {row : PayoutRow}
    {proof : List Hash} (deployment : Deployment w) (inOrder : ModuleInOrder m w mod)
    (done : Finalized platform m sender w next mod claimId acceptPayout row proof) :
    ∃ after, next.modules m = some after ∧ ModuleInOrder m next after := by
  obtain ⟨released, paid, budget, event, release, -, -, drawn, nextEq, -⟩ := done.outcome
  obtain ⟨outflow, boosters, sameRegistry, samePools, -⟩ := release.outflow
  have resolves := finalizedStorage_resolves w.now budget done.filed done.unresolved
  have notPool : ∀ p, (released.pools p).isSome = true → p ≠ m := by
    rintro p isPool rfl
    rw [samePools, deployment.apart p (by rw [done.present]; rfl)] at isPool
    cases isPool
  subst nextEq
  refine ⟨_, setModule_self _, inOrder.resolved resolves ?_ ?_⟩
  · apply inOrder.backed.resolved inOrder.book resolves
    · change paid.registry = { w.registry with scoreSpent := paid.registry.scoreSpent }
      rw [← sameRegistry]
      exact drawn.registry
    · intro token
      have kept := drawn.tokens notPool token
      have out := outflow token
      change _ ≤ paid.erc20 token m + _ + _
      omega
    · change _ ≤ paid.erc1155 _ _ m + _
      rw [drawn.erc1155]
      exact boosters
  · exact (congrArg Incident.protocolFeeShareBps
      (finalizedStorage_incident mod claimId w.now budget)).trans rfl

theorem ModuleInOrder.committed {incidentId deadline : Nat} {root : Hash} {poolPayouts : List Nat}
    (inOrder : ModuleInOrder m w mod)
    (done : Committed m w next mod incidentId root poolPayouts deadline) :
    ∃ after, next.modules m = some after ∧ ModuleInOrder m next after := by
  obtain ⟨stored, after, event, same, written, nextEq, -⟩ := done.outcome
  have active := active_opened w.now (by rw [done.active]; exact done.notZero)
  have book := inOrder.book.setIncident incidentId { mod.incidents incidentId with
    poolBudget := poolPayouts, root := root, phaseDeadline := deadline }
    (by rw [← done.active]; omega) rfl rfl
  subst nextEq
  exact ⟨after, inOrder.stored (book.ofSameClaims same) (Or.inr ⟨incidentId, _, same, rfl⟩) written
    rfl rfl rfl rfl⟩

theorem ModuleInOrder.voided {incidentId : Nat} (inOrder : ModuleInOrder m w mod)
    (done : Voided m w next mod incidentId) :
    ∃ after, next.modules m = some after ∧ ModuleInOrder m next after := by
  have active := active_opened w.now (by rw [done.active]; exact done.notZero)
  have book := inOrder.book.setIncident incidentId
    (World.voidedIncident (mod.incidents incidentId) w.now) (by rw [← done.active]; omega) rfl rfl
  have nextEq := done.outcome
  subst nextEq
  exact ⟨_, inOrder.stored book (Or.inr ⟨incidentId, _, SameClaims.refl _, rfl⟩) (Or.inl rfl) rfl
    rfl rfl rfl⟩

theorem ModuleInOrder.swept {token recipient : Address} {amount : Nat}
    (inOrder : ModuleInOrder m w mod) (present : w.modules m = some mod)
    (done : Swept m w next token recipient amount) :
    (∀ other, escrowOf w.registry mod other ≤ next.erc20 other m) ∧
      next.modules m = some mod ∧ ModuleInOrder m next mod := by
  obtain ⟨found, foundPresent, amountEq⟩ := done.module
  cases present.symm.trans foundPresent
  obtain ⟨erc20, transferred, nextEq⟩ := done.outcome
  have covered : ∀ other, escrowOf w.registry mod other ≤ erc20 other m := by
    intro other
    have before := inOrder.backed.tokens other
    have out := erc20Transfer_outflow _ _ _ _ _ _ transferred other
    by_cases same : other = token
    · subst same
      rw [if_pos rfl] at out
      omega
    · rw [if_neg same] at out
      omega
  subst nextEq
  exact ⟨covered, present, inOrder.book,
    inOrder.backed.ofCounters rfl rfl rfl rfl rfl covered rfl, inOrder.fees⟩

/-- A call to the module keeps it in order. -/
theorem ModuleInOrder.acted {call : ModuleCall} (deployment : Deployment w)
    (inOrder : ModuleInOrder m w mod) (present : w.modules m = some mod)
    (external : w.IsExternal sender) (run : w.callModule platform m sender call = .ok next) :
    ∃ after, next.modules m = some after ∧ ModuleInOrder m next after := by
  have notSender : m ≠ sender := by
    rintro rfl
    have notModule := (Deployment.notExternal external).2.1
    rw [present] at notModule
    cases notModule
  cases callModule_cases call run with
  | configured _ quiet noCommit noSettle done =>
      obtain ⟨found, after, foundPresent, written, same⟩ := done.outcome
      cases present.symm.trans foundPresent
      exact ⟨after, inOrder.stored (inOrder.book.ofSameClaims same) (Or.inl same) written rfl rfl
        rfl rfl⟩
  | swept token recipient amount done => exact ⟨mod, (inOrder.swept present done).2⟩
  | opened token referenceBlock claimDeadline opening done =>
      cases present.symm.trans done.present
      obtain ⟨modules, -, opened⟩ := inOrder.opened deployment.fee done
      exact ⟨_, modules, opened⟩
  | openedAndFiled token amount scoreToSpend boosterAmount referenceBlock signature middle opening
      filing claimDeadline escrow scoreFits opened done =>
      cases present.symm.trans opened.present
      obtain ⟨modules, -, between⟩ := inOrder.opened deployment.fee opened
      cases modules.symm.trans done.present
      have sameToken : ((World.openedModule mod token w.block w.registry referenceBlock
          claimDeadline w.registry.teePcrHash).incidents mod.nextIncidentId).insuredToken =
          token := (congrArg Incident.insuredToken (Function.update_self ..)).trans rfl
      obtain ⟨after, filed⟩ := between.registered external.1 notSender
        inOrder.book.firstIncident (Nat.lt_succ_self _) sameToken done
      exact ⟨_, after, filed⟩
  | filed token amount scoreToSpend boosterAmount referenceBlock signature joining incidentId
      escrow scoreFits joinable done =>
      cases present.symm.trans done.present
      have active := active_opened w.now (by rw [joinable.active]; exact joinable.notZero)
      have positive := joinable.notZero
      obtain ⟨after, filed⟩ := inOrder.registered external.1 notSender
        (Nat.pos_of_ne_zero positive) (by rw [← joinable.active]; omega) joinable.sameToken done
      exact ⟨_, after, filed⟩
  | cancelled cancelling incidentId claimId done =>
      cases present.symm.trans done.present
      exact inOrder.cancelled done
  | settled root poolPayouts signature settling incidentId deadline done =>
      cases present.symm.trans done.present
      exact inOrder.committed done
  | corrected root poolPayouts correcting incidentId deadline done =>
      cases present.symm.trans done.present
      exact inOrder.committed done
  | voided poolPayouts voiding incidentId done =>
      cases present.symm.trans done.present
      exact inOrder.voided done
  | recovered claimId row proof recovering done =>
      cases present.symm.trans done.present
      exact inOrder.recovered done
  | finalized claimId acceptPayout row proof finalizing done =>
      cases present.symm.trans done.present
      exact inOrder.finalized deployment done

theorem ModuleInOrder.initial : ModuleInOrder m next DefiInsurance.initial := by
  have nothing := EscrowBook.initial.nothingLive (rfl : DefiInsurance.initial.nextClaimId = 1)
  refine ⟨EscrowBook.initial, ⟨?_, ?_, le_rfl, fun _ => rfl, fun _ => nothing _⟩, ?_⟩
  · intro token
    unfold escrowOf
    change 0 + (if token = next.registry.usd8 then 0 else 0) ≤ _
    rw [ite_self]
    exact Nat.zero_le _
  · rw [nothing]
    exact Nat.zero_le _
  · intro id
    exact Nat.zero_le _

/-- Every module of a reachable world is in order. -/
theorem reachable_moduleInOrder (reachable : Reachable platform w)
    (present : w.modules m = some mod) : ModuleInOrder m w mod := by
  have both : Deployment w ∧ ∀ found, w.modules m = some found → ModuleInOrder m w found := by
    refine reachable.invariant (fun world => Deployment world ∧
      ∀ found, world.modules m = some found → ModuleInOrder m world found) ?_ ?_
    · intro block timelock admin erc20 erc1155
      refine ⟨Deployment.genesis block timelock admin erc20 erc1155, ?_⟩
      intro found foundPresent
      cases foundPresent
    · rintro world tx after ⟨deployment, inOrder⟩ ran
      refine ⟨deployment.step ran, ?_⟩
      intro found foundPresent
      cases step_moduleView (m := m) deployment ran with
      | bystander _ notCalled same richer registry later =>
          rw [same] at foundPresent
          have before := inOrder found foundPresent
          exact ⟨before.book, before.backed.bystander before.book
            (richer (by rw [foundPresent]; rfl)) registry, before.fees⟩
      | deployed fresh nextEq =>
          subst nextEq
          rw [setModule_self] at foundPresent
          cases foundPresent
          exact ModuleInOrder.initial
      | acted sender call external run =>
          obtain ⟨mod, modPresent⟩ := Option.isSome_iff_exists.mp (callModule_deployed call run)
          obtain ⟨stored, storedPresent, kept⟩ :=
            (inOrder mod modPresent).acted deployment modPresent external run
          cases foundPresent.symm.trans storedPresent
          exact kept
  exact both.2 mod present

end Steps

end Usd8Core.Insurance
