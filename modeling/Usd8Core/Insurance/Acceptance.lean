import Usd8Core.Insurance.ClaimResolution
import Usd8Core.Insurance.Draws

/-!
# Scores are spent by acceptance only

The Registry's count of a user's spent score moves in one kind of step, the
acceptance of an eligible row of the one active incident.  Between the opening of
that incident and the acceptance it stands still, since a user is answered at most
once in an incident.
-/

set_option autoImplicit false

namespace Usd8Core.Insurance

open Usd8Core.Lib.ByteWords
open Usd8Core.Lib.CheckedCall
open Usd8Core.Lib.TraceRun
open Usd8Core.Chain
open Usd8Core.Pool

/-- The module and the incident in which the step accepts a payout for the user. -/
def acceptedIncident (user : Address) (t : Transition World Tx) : Option (Address × Nat) :=
  match t.action with
  | .module m _ (.finalizeClaim claimId true _ _) =>
      (t.before.modules m).bind fun mod =>
        if (mod.claims claimId).user = user then some (m, (mod.claims claimId).incidentId)
        else none
  | _ => none

/-- The step pays the user's claim and adds the score of its row to what was spent. -/
structure ScorePaid (platform : Platform) (user m : Address) (id claimId : Nat) (row : PayoutRow)
    (proof : List Hash) (mod : DefiInsurance) (t : Transition World Tx) : Prop where
  action : ∃ sender, t.action = .module m sender (.finalizeClaim claimId true row proof)
  reaches : ∃ sender released,
    ReachesPayout platform m sender t.before mod claimId row proof released
  encodable : claimId < uintBound 256 ∧ row.Encodable
  claimUser : (mod.claims claimId).user = user
  claimIncident : (mod.claims claimId).incidentId = id
  spent : t.after.registry.scoreSpent user = t.before.registry.scoreSpent user + row.scoreSpent
  answered : ∃ after, t.after.modules m = some after ∧ Answered after id user

section Steps

variable {platform : Platform} {m sender : Address} {user : Address} {w next : World}
  {mod : DefiInsurance} {id claimId : Nat} {row : PayoutRow} {proof : List Hash}

theorem callModule_finalize {acceptPayout : Bool}
    (run : w.callModule platform m sender (.finalizeClaim claimId acceptPayout row proof) =
      .ok next) :
    (claimId < uintBound 256 ∧ row.Encodable) ∧
      w.finalizeClaim platform m sender claimId acceptPayout row proof = .ok next := by
  unfold World.callModule at run
  obtain ⟨_, encodable, run⟩ := (bind_ok_iff _ _ _).mp run
  exact ⟨not_not.mp ((revertIf_ok_iff _ _ _).mp encodable), run⟩

/-- What a finalized claim does to the scores: those of its user only, and only when paid. -/
theorem Finalized.scores {acceptPayout : Bool}
    (done : Finalized platform m sender w next mod claimId acceptPayout row proof) :
    next.registry.scoreSpent = w.registry.scoreSpent ∨
      (acceptPayout = true ∧ row.eligible = true ∧
        next.registry.scoreSpent = Function.update w.registry.scoreSpent
          (mod.claims claimId).user
          (w.registry.scoreSpent (mod.claims claimId).user + row.scoreSpent)) := by
  obtain ⟨released, paid, budget, event, release, whenPaid, whenNot, -, nextEq, -⟩ := done.outcome
  obtain ⟨-, -, sameRegistry, -, -⟩ := release.outflow
  have releasedPresent : released.modules m = some (releasedStorage mod claimId) := by
    obtain ⟨_, _, _, _, _, -, -, -, -, releasedEq⟩ := release.outcome
    rw [releasedEq]
    exact setModule_self _
  have scores : next.registry.scoreSpent = paid.registry.scoreSpent := by
    rw [nextEq]
    rfl
  by_cases both : acceptPayout = true ∧ row.eligible = true
  · right
    have spent := (payAccepted_pays _ row releasedPresent (whenPaid both.1 both.2)).1
    rw [sameRegistry] at spent
    exact ⟨both.1, both.2, scores.trans spent⟩
  · left
    have notPaid : acceptPayout = false ∨ row.eligible = false := by
      cases acceptPayout <;> simp_all
    rw [scores, whenNot notPaid, sameRegistry]

/-- The claim that is paid was on file, and stays there as an answered one. -/
theorem Finalized.answered {acceptPayout : Bool} (onFile : LiveOnFile mod) (book : EscrowBook mod)
    (done : Finalized platform m sender w next mod claimId acceptPayout row proof) :
    ∃ after, next.modules m = some after ∧
      Answered after (mod.claims claimId).incidentId (mod.claims claimId).user := by
  have filed := onFile claimId ⟨done.filed, done.unresolved⟩
  obtain ⟨_, paid, budget, event, -, -, -, -, nextEq, -⟩ := done.outcome
  have stored : next.modules m = some (finalizedStorage mod claimId w.now budget) := by
    rw [nextEq]
    exact setModule_self _
  have claimIds : (finalizedStorage mod claimId w.now budget).claimIdByIncidentAndUser
      (mod.claims claimId).incidentId (mod.claims claimId).user = claimId := filed
  have claims : (finalizedStorage mod claimId w.now budget).claims claimId =
      { mod.claims claimId with resolved := true } := Function.update_self ..
  refine ⟨_, stored, ?_, ?_⟩
  · rw [claimIds]
    exact Nat.pos_iff_ne_zero.mp (book.inside done.filed).1
  · rw [claimIds, claims]

theorem callModule_scores (user : Address) {call : ModuleCall} (reachable : Reachable platform w)
    (run : w.callModule platform m sender call = .ok next) :
    next.registry.scoreSpent user = w.registry.scoreSpent user ∨
      ∃ id claimId row proof mod, ScorePaid platform user m id claimId row proof mod
        ⟨w, .module m sender call, next⟩ := by
  cases callModule_cases call run with
  | configured _ quiet noCommit noSettle done =>
      obtain ⟨mod, after, -, rfl | ⟨token, rfl⟩, -⟩ := done.outcome
      · exact Or.inl rfl
      · exact Or.inl rfl
  | swept token recipient amount done =>
      obtain ⟨erc20, -, rfl⟩ := done.outcome
      exact Or.inl rfl
  | opened token referenceBlock claimDeadline opening done =>
      obtain ⟨settled, -, only, rfl⟩ := done.outcome
      exact Or.inl (congrArg (fun registry : Registry => registry.scoreSpent user) only.registry)
  | openedAndFiled token amount scoreToSpend boosterAmount referenceBlock signature middle opening
      filing claimDeadline escrow scoreFits opened done =>
      obtain ⟨settled, -, only, rfl⟩ := opened.outcome
      obtain ⟨_, pulled, bonded, erc1155, -, -, -, -, rfl⟩ := done.outcome
      exact Or.inl (congrArg (fun registry : Registry => registry.scoreSpent user) only.registry)
  | filed token amount scoreToSpend boosterAmount referenceBlock signature joining incidentId
      escrow scoreFits joinable done =>
      obtain ⟨_, pulled, bonded, erc1155, -, -, -, -, rfl⟩ := done.outcome
      exact Or.inl rfl
  | cancelled cancelling incidentId claimId done =>
      obtain ⟨base, erc20, erc1155, -, -, rfl⟩ := done.outcome
      exact Or.inl rfl
  | settled root poolPayouts signature settling incidentId deadline done =>
      obtain ⟨stored, after, event, -, rfl | ⟨token, rfl⟩, rfl, -⟩ := done.outcome
      · exact Or.inl rfl
      · exact Or.inl rfl
  | corrected root poolPayouts correcting incidentId deadline done =>
      obtain ⟨stored, after, event, -, rfl | ⟨token, rfl⟩, rfl, -⟩ := done.outcome
      · exact Or.inl rfl
      · exact Or.inl rfl
  | voided poolPayouts voiding incidentId done =>
      rw [done.outcome]
      exact Or.inl rfl
  | recovered claimId row proof recovering done =>
      obtain ⟨erc20, erc1155, -, rfl⟩ := done.outcome
      exact Or.inl rfl
  | finalized claimId acceptPayout row proof mod done =>
      rcases done.scores with same | ⟨accepts, eligible, spent⟩
      · exact Or.inl (congrFun same user)
      · by_cases isUser : (mod.claims claimId).user = user
        · right
          subst accepts isUser
          obtain ⟨encodable, ran⟩ := callModule_finalize run
          obtain ⟨found, released, reaches⟩ := reachesPayout_of_accepted eligible ran
          cases done.present.symm.trans reaches.present
          have book := (reachable_moduleInOrder reachable done.present).book
          exact ⟨_, claimId, row, proof, mod, ⟨sender, rfl⟩, ⟨sender, released, reaches⟩,
            encodable, rfl, rfl, by simp [spent],
            done.answered (reachable_liveOnFile reachable done.present) book⟩
        · left
          rw [spent, Function.update_of_ne (Ne.symm isUser)]

/-- Every step leaves the score of a user alone or pays that user. -/
theorem step_scores (user : Address) {tx : Tx} (reachable : Reachable platform w)
    (ran : step platform w tx = .ok next) :
    next.registry.scoreSpent user = w.registry.scoreSpent user ∨
      ∃ m id claimId row proof mod, ScorePaid platform user m id claimId row proof mod
        ⟨w, tx, next⟩ := by
  cases step_cases ran with
  | module m sender call external run =>
      rcases callModule_scores user reachable run with same | paid
      · exact Or.inl same
      · exact Or.inr ⟨m, paid⟩
  | registry sender call external run =>
      obtain ⟨registry, changed, rfl⟩ := callRegistry_ok call run
      exact Or.inl (congrFun changed.scores user)
  | pool p sender call external run =>
      have same := (callPool_frame sender call run).2.1
      exact Or.inl (congrArg (fun registry : Registry => registry.scoreSpent user) same)
  | tokens _ move erc20 erc1155 erc20Kept erc1155Kept nextEq =>
      subst nextEq
      exact Or.inl rfl
  | moduleDeployed m run =>
      obtain ⟨-, rfl⟩ := deployModule_ok run
      exact Or.inl rfl
  | poolDeployed p asset run =>
      obtain ⟨-, -, -, rfl⟩ := deployPool_ok p asset run
      exact Or.inl rfl
  | mined block later higher nextEq =>
      subst nextEq
      exact Or.inl rfl

/-! ## One answer in one incident -/

/-- An answered user stays answered. -/
theorem Answered.step {tx : Tx} (reachable : Reachable platform w)
    (present : w.modules m = some mod) (answered : Answered mod id user)
    (ran : step platform w tx = .ok next) :
    ∃ after, next.modules m = some after ∧ Answered after id user := by
  cases step_moduleView (m := m) (reachable_deployment reachable) ran with
  | bystander _ notCalled same richer registry later => exact ⟨mod, same.trans present, answered⟩
  | deployed fresh nextEq =>
      rw [present] at fresh
      cases fresh
  | acted sender call external run =>
      have book := (reachable_moduleInOrder reachable present).book
      obtain ⟨after, stored, moved⟩ := callModule_claims book present run
      exact ⟨after, stored, answered.moved book (reachable_liveOnFile reachable present) moved⟩

theorem Answered.run {steps : List (Transition World Tx)} (reachable : Reachable platform w)
    (present : w.modules m = some mod) (answered : Answered mod id user)
    (run : IsRun (Chain.step platform) w steps next) :
    ∃ after, next.modules m = some after ∧ Answered after id user := by
  have both : Reachable platform next ∧
      ∃ after, next.modules m = some after ∧ Answered after id user := by
    refine run.invariant (fun world => Reachable platform world ∧
      ∃ after, world.modules m = some after ∧ Answered after id user)
      ⟨reachable, mod, present, answered⟩ ?_
    rintro world tx after ⟨reached, found, foundPresent, still⟩ ran
    exact ⟨reached.step ran, still.step reached foundPresent ran⟩
  exact both.2

/-- An answered user has no live claim in that incident. -/
theorem Answered.notLive (answered : Answered mod id user) (onFile : LiveOnFile mod)
    (claimUser : (mod.claims claimId).user = user)
    (claimIncident : (mod.claims claimId).incidentId = id) : ¬ IsLive (mod.claims claimId) := by
  intro live
  have filed := onFile claimId live
  rw [claimUser, claimIncident] at filed
  have resolved := answered.2
  rw [filed, live.2] at resolved
  cases resolved

/-- Two active incidents are one. -/
theorem IsActive.unique {other : Address} {otherId : Nat} (active : IsActive w m id)
    (otherActive : IsActive w other otherId) : other = m ∧ otherId = id := by
  obtain ⟨registered, -, mod, present, activeId⟩ := active
  obtain ⟨otherRegistered, -, otherMod, otherPresent, otherActiveId⟩ := otherActive
  have sameModule : other = m := otherRegistered.symm.trans registered
  subst sameModule
  cases present.symm.trans otherPresent
  exact ⟨rfl, otherActiveId.symm.trans activeId⟩

/-- The paid claim belongs to the one active incident. -/
theorem ScorePaid.isActive {t : Transition World Tx} (reachable : Reachable platform t.before)
    (paid : ScorePaid platform user m id claimId row proof mod t) : IsActive t.before m id := by
  obtain ⟨sender, released, reaches⟩ := paid.reaches
  have active := reaches.active reachable
  have opened := (reachable_moduleInOrder reachable reaches.present).book.incidentOf claimId
    reaches.filed
  rw [paid.claimIncident] at active opened
  exact ⟨reaches.registered, Nat.pos_iff_ne_zero.mp opened.1, mod, reaches.present, active⟩

/-- Every accepted payout is in the list of the user's accepted incidents. -/
theorem ScorePaid.accepted {t : Transition World Tx}
    (paid : ScorePaid platform user m id claimId row proof mod t) :
    acceptedIncident user t = some (m, id) := by
  obtain ⟨sender, action⟩ := paid.action
  obtain ⟨_, released, reaches⟩ := paid.reaches
  unfold acceptedIncident
  rw [action]
  simp [reaches.present, paid.claimUser, paid.claimIncident]

/-- From any moment at which the incident was open up to the payment of the user in it,
nothing is added to the user's spent score. -/
theorem ScorePaid.unspentSince {t : Transition World Tx} {since : List (Transition World Tx)}
    {opening : DefiInsurance} (reachable : Reachable platform w)
    (present : w.modules m = some opening) (opened : id < opening.nextIncidentId)
    (run : IsRun (Chain.step platform) w since t.before)
    (paid : ScorePaid platform user m id claimId row proof mod t) :
    t.before.registry.scoreSpent user = w.registry.scoreSpent user := by
  have reachedLast : Reachable platform t.before := reachable.extend run
  have activeLast := paid.isActive reachedLast
  -- the invariant of the run up to `middle`, with the rest of the run still ahead
  suffices prefixes : ∀ (steps : List (Transition World Tx)) (middle : World),
      IsRun (Chain.step platform) w steps middle → ∀ rest,
      IsRun (Chain.step platform) middle rest t.before →
      (∃ found, middle.modules m = some found ∧ id < found.nextIncidentId) ∧
        middle.registry.scoreSpent user = w.registry.scoreSpent user from
    (prefixes since t.before run [] .nil).2
  intro steps middle ran
  induction ran with
  | nil => exact fun rest later => ⟨⟨opening, present, opened⟩, rfl⟩
  | snoc steps middle tx final ran last ih =>
      intro rest later
      obtain ⟨⟨found, foundPresent, foundOpened⟩, unspent⟩ := ih _ (IsRun.cons last later)
      have reached : Reachable platform middle := reachable.extend ran
      obtain ⟨after, presentAfter, openedAfter, -⟩ :=
        step_progress (reachable_deployment reached) foundPresent foundOpened last
      refine ⟨⟨after, presentAfter, openedAfter⟩, ?_⟩
      rcases step_scores user reached last with same | ⟨other, otherId, otherClaim,
        otherRow, otherProof, otherMod, otherPaid⟩
      · rw [same, unspent]
      · exfalso
        have sameIncident : other = m ∧ otherId = id := by
          have otherActive := otherPaid.isActive reached
          have stillActive : IsActive middle m id := by
            by_contra inactive
            have retired := retired_of_notActive reached foundPresent
              (Nat.pos_of_ne_zero activeLast.2.1) foundOpened inactive
            exact (retired.run reached (Nat.pos_of_ne_zero activeLast.2.1)
              (IsRun.cons last later)).notActive activeLast
          exact IsActive.unique stillActive otherActive
        obtain ⟨rfl, rfl⟩ := sameIncident
        obtain ⟨answeredMod, answeredPresent, answered⟩ := otherPaid.answered
        obtain ⟨lastMod, lastPresent, stillAnswered⟩ :=
          answered.run (reached.step last) answeredPresent later
        obtain ⟨sender, released, reaches⟩ := paid.reaches
        cases reaches.present.symm.trans lastPresent
        exact stillAnswered.notLive (reachable_liveOnFile reachedLast reaches.present)
          paid.claimUser paid.claimIncident ⟨reaches.filed, reaches.unresolved⟩

/-! ## Incident ids -/

/-- A call that opens an incident has checked its id. -/
theorem callModule_incidentIds {call : ModuleCall} (present : w.modules m = some mod)
    (idsFit : mod.nextIncidentId < uintBound 64)
    (run : w.callModule platform m sender call = .ok next) :
    ∃ after, next.modules m = some after ∧ after.nextIncidentId < uintBound 64 := by
  cases callModule_cases call run with
  | configured _ quiet noCommit noSettle done =>
      obtain ⟨found, after, foundPresent, written, same⟩ := done.outcome
      cases present.symm.trans foundPresent
      exact ⟨after, written.frame.1, by rw [same.nextIncidentId]; exact idsFit⟩
  | swept token recipient amount done =>
      obtain ⟨erc20, -, rfl⟩ := done.outcome
      exact ⟨mod, present, idsFit⟩
  | opened token referenceBlock claimDeadline opening done =>
      cases present.symm.trans done.present
      obtain ⟨settled, -, -, rfl⟩ := done.outcome
      exact ⟨_, setModule_self _, done.idFits⟩
  | openedAndFiled token amount scoreToSpend boosterAmount referenceBlock signature middle opening
      filing claimDeadline escrow scoreFits opened done =>
      cases present.symm.trans opened.present
      obtain ⟨settled, -, -, rfl⟩ := opened.outcome
      cases done.present.symm.trans (setModule_self _)
      obtain ⟨_, pulled, bonded, erc1155, -, -, -, -, rfl⟩ := done.outcome
      exact ⟨_, setModule_self _, opened.idFits⟩
  | filed token amount scoreToSpend boosterAmount referenceBlock signature joining incidentId
      escrow scoreFits joinable done =>
      cases present.symm.trans done.present
      obtain ⟨_, pulled, bonded, erc1155, -, -, -, -, rfl⟩ := done.outcome
      exact ⟨_, setModule_self _, idsFit⟩
  | cancelled cancelling incidentId claimId done =>
      cases present.symm.trans done.present
      obtain ⟨base, erc20, erc1155, rfl, -, rfl⟩ := done.outcome
      exact ⟨_, setModule_self _, idsFit⟩
  | settled root poolPayouts signature settling incidentId deadline done =>
      cases present.symm.trans done.present
      obtain ⟨stored, after, event, same, written, rfl, -⟩ := done.outcome
      exact ⟨after, written.frame.1, by rw [same.nextIncidentId]; exact idsFit⟩
  | corrected root poolPayouts correcting incidentId deadline done =>
      cases present.symm.trans done.present
      obtain ⟨stored, after, event, same, written, rfl, -⟩ := done.outcome
      exact ⟨after, written.frame.1, by rw [same.nextIncidentId]; exact idsFit⟩
  | voided poolPayouts voiding incidentId done =>
      cases present.symm.trans done.present
      rw [done.outcome]
      exact ⟨_, setModule_self _, idsFit⟩
  | recovered claimId row proof recovering done =>
      cases present.symm.trans done.present
      obtain ⟨erc20, erc1155, -, rfl⟩ := done.outcome
      exact ⟨_, setModule_self _, idsFit⟩
  | finalized claimId acceptPayout row proof finalizing done =>
      cases present.symm.trans done.present
      obtain ⟨_, paid, budget, event, -, -, -, -, rfl, -⟩ := done.outcome
      exact ⟨_, setModule_self _, idsFit⟩

theorem reachable_incidentIds (reachable : Reachable platform w)
    (present : w.modules m = some mod) : mod.nextIncidentId < uintBound 64 := by
  have both : Deployment w ∧
      ∀ found, w.modules m = some found → found.nextIncidentId < uintBound 64 := by
    refine reachable.invariant (fun world => Deployment world ∧
      ∀ found, world.modules m = some found → found.nextIncidentId < uintBound 64) ?_ ?_
    · intro block timelock admin erc20 erc1155
      refine ⟨Deployment.genesis block timelock admin erc20 erc1155, fun found foundPresent => ?_⟩
      cases foundPresent
    · rintro world tx final ⟨deployment, idsFit⟩ ran
      refine ⟨deployment.step ran, fun found foundPresent => ?_⟩
      cases step_moduleView (m := m) deployment ran with
      | bystander _ notCalled same richer registry later =>
          rw [same] at foundPresent
          exact idsFit found foundPresent
      | deployed fresh nextEq =>
          subst nextEq
          rw [setModule_self] at foundPresent
          cases foundPresent
          norm_num [DefiInsurance.initial, uintBound]
      | acted sender call external run =>
          obtain ⟨before, beforePresent⟩ :=
            Option.isSome_iff_exists.mp (callModule_deployed call run)
          obtain ⟨after, stored, stillFit⟩ :=
            callModule_incidentIds beforePresent (idsFit before beforePresent) run
          cases foundPresent.symm.trans stored
          exact stillFit
  exact both.2 mod present

/-! ## Where a root comes from -/

/-- A standing root was committed in the run. -/
theorem root_committed {steps : List (Transition World Tx)} (run : SystemRun platform steps w)
    (present : w.modules m = some mod) (hasRoot : (mod.incidents id).root ≠ Hash.zero) :
    ∃ earlier t later poolPayouts, steps = earlier ++ t :: later ∧
      Commits m id (mod.incidents id).root poolPayouts t := by
  obtain ⟨block, timelock, admin, erc20, erc1155, run⟩ := run
  induction run generalizing mod with
  | nil => cases present
  | snoc earlier middle tx final run last ih =>
      have reachable : Reachable platform middle :=
        ⟨earlier, block, timelock, admin, erc20, erc1155, run⟩
      obtain ⟨before, presentBefore, opened⟩ := opened_of_root reachable last present hasRoot
      obtain ⟨stored, storedPresent, -, -, -, moved⟩ :=
        step_settlementMove (t := ⟨middle, tx, final⟩) reachable presentBefore opened last
      cases present.symm.trans storedPresent
      have fromEarlier : (mod.incidents id).root = (before.incidents id).root →
          ∃ first t later poolPayouts, earlier ++ [⟨middle, tx, final⟩] = first ++ t :: later ∧
            Commits m id (mod.incidents id).root poolPayouts t := by
        intro same
        rw [same] at hasRoot ⊢
        obtain ⟨first, t, later, poolPayouts, stepsEq, commits⟩ := ih presentBefore hasRoot
        exact ⟨first, t, later ++ [⟨middle, tx, final⟩], poolPayouts, by simp [stepsEq], commits⟩
      cases moved with
      | kept notCommits notAccepts undrawn root budget deadline => exact fromEarlier root
      | committed newRoot poolPayouts commits notAccepts undrawn stillOpen lengths caps root
          budget =>
          rw [root]
          exact ⟨earlier, ⟨middle, tx, final⟩, [], poolPayouts, rfl, commits⟩
      | voided notCommits notAccepts undrawn inTime root => exact absurd root hasRoot
      | accepted notCommits accepts hadRoot afterDeadline root deadline drawn =>
          exact fromEarlier root

end Steps

end Usd8Core.Insurance
