import Usd8Core.Insurance.Solvency

/-!
# How claims are filed and resolved

Three things can happen to the claims of a module in one call: nothing, a claim is
filed where its user had none, a live claim is resolved.  So the live claim of a
user on an incident is the one on file, and once that one was answered the user
has no other claim there.
-/

set_option autoImplicit false

namespace Usd8Core.Insurance

open Usd8Core.Lib.ByteWords
open Usd8Core.Lib.CheckedCall
open Usd8Core.Lib.TraceRun
open Usd8Core.Chain
open Usd8Core.Pool

/-- The claim on file of one user on one incident, rewritten. -/
def withClaimId (claimIds : Nat → Address → Nat) (incidentId : Nat) (user : Address)
    (claimId : Nat) : Nat → Address → Nat :=
  Function.update claimIds incidentId (Function.update (claimIds incidentId) user claimId)

/-- The claims of a module before and after one of its calls. -/
inductive ClaimsMoved (mod after : DefiInsurance) : Prop
  | same (claims : after.claims = mod.claims)
      (claimIds : after.claimIdByIncidentAndUser = mod.claimIdByIncidentAndUser)
      (nextClaimId : after.nextClaimId = mod.nextClaimId)
  | filed (claim : Claim)
      (noClaim : mod.claimIdByIncidentAndUser claim.incidentId claim.user = 0)
      (claims : after.claims = Function.update mod.claims mod.nextClaimId claim)
      (claimIds : after.claimIdByIncidentAndUser = withClaimId mod.claimIdByIncidentAndUser
        claim.incidentId claim.user mod.nextClaimId)
      (nextClaimId : after.nextClaimId = mod.nextClaimId + 1)
  | resolved (claimId : Nat) (live : IsLive (mod.claims claimId))
      (claims : after.claims =
        Function.update mod.claims claimId { mod.claims claimId with resolved := true })
      (claimIds : after.claimIdByIncidentAndUser = mod.claimIdByIncidentAndUser ∨
        after.claimIdByIncidentAndUser = withClaimId mod.claimIdByIncidentAndUser
          (mod.claims claimId).incidentId (mod.claims claimId).user 0)
      (nextClaimId : after.nextClaimId = mod.nextClaimId)

/-- Every live claim is the one on file for its user and its incident. -/
def LiveOnFile (mod : DefiInsurance) : Prop :=
  ∀ claimId, IsLive (mod.claims claimId) →
    mod.claimIdByIncidentAndUser (mod.claims claimId).incidentId (mod.claims claimId).user = claimId

/-- The claim on file of the user on the incident was resolved, not cancelled. -/
def Answered (mod : DefiInsurance) (incidentId : Nat) (user : Address) : Prop :=
  mod.claimIdByIncidentAndUser incidentId user ≠ 0 ∧
    (mod.claims (mod.claimIdByIncidentAndUser incidentId user)).resolved = true

section Moves

variable {platform : Platform} {m sender : Address} {w next : World} {mod after : DefiInsurance}

@[simp] theorem withClaimId_self (claimIds : Nat → Address → Nat) (incidentId : Nat)
    (user : Address) (claimId : Nat) :
    withClaimId claimIds incidentId user claimId incidentId user = claimId := by
  simp [withClaimId]

theorem withClaimId_of_ne (claimIds : Nat → Address → Nat) {incidentId id : Nat}
    {user other : Address} (claimId : Nat) (differ : ¬ (id = incidentId ∧ other = user)) :
    withClaimId claimIds incidentId user claimId id other = claimIds id other := by
  unfold withClaimId
  by_cases same : id = incidentId
  · subst same
    rw [Function.update_self, Function.update_of_ne fun sameUser => differ ⟨rfl, sameUser⟩]
  · rw [Function.update_of_ne same]

theorem Registered.filed {token : Address} {incidentId escrow scoreToSpend boosterAmount : Nat}
    (noClaim : mod.claimIdByIncidentAndUser incidentId sender = 0)
    (done : Registered platform m sender w next mod token incidentId escrow scoreToSpend
      boosterAmount) :
    ∃ (claim : Claim) (after : DefiInsurance), next.modules m = some after ∧
      mod.claimIdByIncidentAndUser claim.incidentId claim.user = 0 ∧
      after.claims = Function.update mod.claims mod.nextClaimId claim ∧
      after.claimIdByIncidentAndUser = withClaimId mod.claimIdByIncidentAndUser
        claim.incidentId claim.user mod.nextClaimId ∧
      after.nextClaimId = mod.nextClaimId + 1 := by
  obtain ⟨_, pulled, bonded, erc1155, -, -, -, -, nextEq⟩ := done.outcome
  subst nextEq
  exact ⟨⟨sender, incidentId, escrow, boosterAmount, mod.claimBondAmount, false⟩, _,
    setModule_self _, noClaim, rfl, rfl, rfl⟩

theorem Cancelled.claimIds {incidentId claimId : Nat} (book : EscrowBook mod)
    (done : Cancelled platform m sender w next mod incidentId claimId) :
    (mod.claims claimId).user = sender ∧ (mod.claims claimId).incidentId = incidentId := by
  have claimed : mod.claimIdByIncidentAndUser incidentId sender ≠ 0 := by
    rw [done.claimOfSender]
    exact done.claimNotZero
  obtain ⟨sameUser, -, sameIncident⟩ := book.claimOf incidentId sender claimed
  rw [done.claimOfSender] at sameUser sameIncident
  exact ⟨sameUser, sameIncident⟩

theorem callModule_claims {call : ModuleCall} (book : EscrowBook mod)
    (present : w.modules m = some mod) (run : w.callModule platform m sender call = .ok next) :
    ∃ after, next.modules m = some after ∧ ClaimsMoved mod after := by
  cases callModule_cases call run with
  | configured _ quiet noCommit noSettle done =>
      obtain ⟨found, after, foundPresent, written, same⟩ := done.outcome
      cases present.symm.trans foundPresent
      exact ⟨after, written.frame.1, .same same.claims same.claimIds same.nextClaimId⟩
  | swept token recipient amount done =>
      obtain ⟨erc20, -, rfl⟩ := done.outcome
      exact ⟨mod, present, .same rfl rfl rfl⟩
  | opened token referenceBlock claimDeadline opening done =>
      cases present.symm.trans done.present
      obtain ⟨settled, -, -, rfl⟩ := done.outcome
      exact ⟨_, setModule_self _, .same rfl rfl rfl⟩
  | openedAndFiled token amount scoreToSpend boosterAmount referenceBlock signature middle opening
      filing claimDeadline escrow scoreFits opened done =>
      cases present.symm.trans opened.present
      have noClaim : (World.openedModule mod token w.block w.registry referenceBlock claimDeadline
          w.registry.teePcrHash).claimIdByIncidentAndUser mod.nextIncidentId sender = 0 :=
        book.noClaimOf mod.nextIncidentId sender le_rfl
      obtain ⟨settled, -, -, rfl⟩ := opened.outcome
      cases done.present.symm.trans (setModule_self _)
      obtain ⟨claim, after, stored, noneOf, claims, claimIds, nextClaimId⟩ :=
        done.filed noClaim
      exact ⟨after, stored, .filed claim noneOf claims claimIds nextClaimId⟩
  | filed token amount scoreToSpend boosterAmount referenceBlock signature joining incidentId
      escrow scoreFits joinable done =>
      cases present.symm.trans done.present
      obtain ⟨claim, after, stored, noneOf, claims, claimIds, nextClaimId⟩ :=
        done.filed joinable.noClaim
      exact ⟨after, stored, .filed claim noneOf claims claimIds nextClaimId⟩
  | cancelled cancelling incidentId claimId done =>
      cases present.symm.trans done.present
      obtain ⟨sameUser, sameIncident⟩ := done.claimIds book
      have resolves := done.resolves book
      obtain ⟨base, erc20, erc1155, rfl, -, rfl⟩ := done.outcome
      refine ⟨_, setModule_self _, .resolved claimId ⟨resolves.filed, done.unresolved⟩ rfl
        (Or.inr ?_) rfl⟩
      rw [sameUser, sameIncident]
      rfl
  | settled root poolPayouts signature settling incidentId deadline done =>
      cases present.symm.trans done.present
      obtain ⟨stored, after, event, same, written, rfl, -⟩ := done.outcome
      exact ⟨after, written.frame.1, .same same.claims same.claimIds same.nextClaimId⟩
  | corrected root poolPayouts correcting incidentId deadline done =>
      cases present.symm.trans done.present
      obtain ⟨stored, after, event, same, written, rfl, -⟩ := done.outcome
      exact ⟨after, written.frame.1, .same same.claims same.claimIds same.nextClaimId⟩
  | voided poolPayouts voiding incidentId done =>
      cases present.symm.trans done.present
      rw [done.outcome]
      exact ⟨_, setModule_self _, .same rfl rfl rfl⟩
  | recovered claimId row proof recovering done =>
      cases present.symm.trans done.present
      obtain ⟨erc20, erc1155, -, rfl⟩ := done.outcome
      exact ⟨_, setModule_self _, .resolved claimId ⟨done.filed, done.unresolved⟩ rfl (Or.inl rfl)
        rfl⟩
  | finalized claimId acceptPayout row proof finalizing done =>
      cases present.symm.trans done.present
      obtain ⟨_, paid, budget, event, -, -, -, -, rfl, -⟩ := done.outcome
      exact ⟨_, setModule_self _, .resolved claimId ⟨done.filed, done.unresolved⟩ rfl (Or.inl rfl)
        rfl⟩

/-! ## What stays on file -/

theorem LiveOnFile.moved (book : EscrowBook mod) (onFile : LiveOnFile mod)
    (moved : ClaimsMoved mod after) : LiveOnFile after := by
  intro claimId live
  cases moved with
  | same claims claimIds nextClaimId =>
      rw [claims] at live ⊢
      rw [claimIds]
      exact onFile claimId live
  | filed claim noClaim claims claimIds nextClaimId =>
      rw [claims] at live ⊢
      rw [claimIds]
      by_cases fresh : claimId = mod.nextClaimId
      · subst fresh
        rw [Function.update_self, withClaimId_self]
      · rw [Function.update_of_ne fresh] at live ⊢
        have before := onFile claimId live
        rw [withClaimId_of_ne]
        · exact before
        · rintro ⟨sameIncident, sameUser⟩
          rw [sameIncident, sameUser, noClaim] at before
          subst before
          exact live.1 (book.unfiled 0 (Or.inl rfl))
  | resolved done doneLive claims claimIds nextClaimId =>
      rw [claims] at live ⊢
      by_cases same : claimId = done
      · subst same
        rw [Function.update_self] at live
        exact absurd live.2 (by simp)
      · rw [Function.update_of_ne same] at live ⊢
        have before := onFile claimId live
        rcases claimIds with kept | cleared
        · rw [kept]
          exact before
        · rw [cleared, withClaimId_of_ne]
          · exact before
          · rintro ⟨sameIncident, sameUser⟩
            rw [sameIncident, sameUser, onFile done doneLive] at before
            exact same before.symm

theorem Answered.moved {incidentId : Nat} {user : Address} (book : EscrowBook mod)
    (onFile : LiveOnFile mod) (answered : Answered mod incidentId user)
    (moved : ClaimsMoved mod after) : Answered after incidentId user := by
  obtain ⟨notZero, isResolved⟩ := answered
  have owned := book.claimOf incidentId user notZero
  cases moved with
  | same claims claimIds nextClaimId =>
      unfold Answered
      rw [claims, claimIds]
      exact ⟨notZero, isResolved⟩
  | filed claim noClaim claims claimIds nextClaimId =>
      have kept : after.claimIdByIncidentAndUser incidentId user =
          mod.claimIdByIncidentAndUser incidentId user := by
        rw [claimIds]
        apply withClaimId_of_ne
        rintro ⟨rfl, rfl⟩
        exact notZero noClaim
      have older := (book.inside (by rw [owned.1]; exact owned.2.1)).2
      unfold Answered
      rw [kept, claims, Function.update_of_ne (Nat.ne_of_lt older)]
      exact ⟨notZero, isResolved⟩
  | resolved done doneLive claims claimIds nextClaimId =>
      have kept : after.claimIdByIncidentAndUser incidentId user =
          mod.claimIdByIncidentAndUser incidentId user := by
        rcases claimIds with kept | cleared
        · rw [kept]
        · rw [cleared]
          apply withClaimId_of_ne
          rintro ⟨rfl, rfl⟩
          rw [onFile done doneLive, doneLive.2] at isResolved
          cases isResolved
      unfold Answered
      rw [kept, claims]
      refine ⟨notZero, ?_⟩
      by_cases same : mod.claimIdByIncidentAndUser incidentId user = done
      · rw [same, Function.update_self]
      · rw [Function.update_of_ne same]
        exact isResolved

/-- In every reachable world the live claims are the ones on file. -/
theorem reachable_liveOnFile (reachable : Reachable platform w)
    (present : w.modules m = some mod) : LiveOnFile mod := by
  have both : Reachable platform w ∧ ∀ found, w.modules m = some found → LiveOnFile found := by
    refine reachable.invariant (fun world => Reachable platform world ∧
      ∀ found, world.modules m = some found → LiveOnFile found) ?_ ?_
    · intro block timelock admin erc20 erc1155
      refine ⟨⟨[], _, _, _, _, _, .nil⟩, fun found foundPresent => ?_⟩
      cases foundPresent
    · rintro world tx final ⟨reached, onFile⟩ ran
      refine ⟨reached.step ran, fun found foundPresent => ?_⟩
      cases step_moduleView (m := m) (reachable_deployment reached) ran with
      | bystander _ notCalled same richer registry later =>
          rw [same] at foundPresent
          exact onFile found foundPresent
      | deployed fresh nextEq =>
          subst nextEq
          rw [setModule_self] at foundPresent
          cases foundPresent
          intro claimId live
          exact absurd rfl live.1
      | acted sender call external run =>
          obtain ⟨before, beforePresent⟩ :=
            Option.isSome_iff_exists.mp (callModule_deployed call run)
          have book := (reachable_moduleInOrder reached beforePresent).book
          obtain ⟨stored, storedPresent, moved⟩ := callModule_claims book beforePresent run
          cases foundPresent.symm.trans storedPresent
          exact (onFile before beforePresent).moved book moved
  exact both.2 mod present

end Moves

end Usd8Core.Insurance
