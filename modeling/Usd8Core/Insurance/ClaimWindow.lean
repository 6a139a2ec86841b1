import Usd8Core.Insurance.IncidentSteps

/-!
# The claim window

The deadline that an incident records when it is opened: whatever happens later, a
claim joins the incident or leaves it only until then.
-/

set_option autoImplicit false

namespace Usd8Core.Insurance

open Usd8Core.Lib.ByteWords
open Usd8Core.Lib.CheckedCall
open Usd8Core.Lib.TraceRun
open Usd8Core.Chain
open Usd8Core.Pool

/-- The step opens the incident, and its time and the window it stores give the deadline. -/
def OpensUntil (m : Address) (id deadline : Nat) (t : Transition World Tx) : Prop :=
  ∃ mod after, t.before.modules m = some mod ∧ t.after.modules m = some after ∧
    mod.nextIncidentId = id ∧ id < after.nextIncidentId ∧
    deadline = t.before.now + after.incidentPhaseWindow id

/-- An accepted call that adds a claim to the incident or takes one back. -/
inductive ClaimCall (m : Address) (id : Nat) (t : Transition World Tx) : Prop
  | filed (sender token : Address) (amount scoreToSpend boosterAmount referenceBlock : Nat)
      (signature : List Byte) (mod after : DefiInsurance)
      (action : t.action = .module m sender (.fileClaim token amount scoreToSpend boosterAmount
        referenceBlock signature))
      (present : t.before.modules m = some mod) (presentAfter : t.after.modules m = some after)
      (claimOf : (after.claims mod.nextClaimId).incidentId = id)
  | cancelled (sender : Address) (mod : DefiInsurance)
      (action : t.action = .module m sender .cancelClaim)
      (present : t.before.modules m = some mod)
      (active : mod.activeIncidentId t.before.now = id)

/-- The incident is recorded, and without a root its deadline is not after the given one. -/
def DeadlineWithin (m : Address) (id deadline : Nat) (w : World) : Prop :=
  ∃ mod, w.modules m = some mod ∧ id < mod.nextIncidentId ∧
    ((mod.incidents id).root = Hash.zero → (mod.incidents id).phaseDeadline ≤ deadline)

def Recorded (m : Address) (id : Nat) (w : World) : Prop :=
  ∃ mod, w.modules m = some mod ∧ id < mod.nextIncidentId

section Window

variable {platform : Platform} {m sender : Address} {w next : World} {mod after : DefiInsurance}
  {id deadline : Nat}

/-- Only a commit writes a later deadline, and it writes a root with it. -/
theorem IncidentStep.within {call : ModuleCall} {incident : Incident}
    (moved : IncidentStep m w next mod call id incident)
    (within : (mod.incidents id).root = Hash.zero → (mod.incidents id).phaseDeadline ≤ deadline) :
    incident.root = Hash.zero → incident.phaseDeadline ≤ deadline := by
  cases moved with
  | same _ => exact within
  | filed _ _ _ _ _ => exact within
  | cancelled _ _ _ _ _ => exact within
  | committed root poolPayouts deadline callEq active registered rootNotZero _ _ _ _ =>
      exact fun noRoot => absurd noRoot rootNotZero
  | voided _ _ _ _ => exact fun _ => Nat.zero_le deadline
  | recovered _ _ _ _ _ _ _ _ => exact within
  | finalized _ _ _ _ _ _ _ _ _ _ _ _ => exact within

theorem DeadlineWithin.step {tx : Tx} (deployment : Deployment w)
    (within : DeadlineWithin m id deadline w) (ran : step platform w tx = .ok next) :
    DeadlineWithin m id deadline next := by
  obtain ⟨mod, present, opened, early⟩ := within
  obtain ⟨after, presentAfter, stillOpened, -, moved⟩ := step_progress deployment present opened ran
  refine ⟨after, presentAfter, stillOpened, ?_⟩
  rcases moved with ⟨-, same⟩ | ⟨_, call, -, -, progress⟩
  · rw [same]
    exact early
  · exact (progress.incidents id opened).within early

theorem Recorded.step {tx : Tx} (deployment : Deployment w) (recorded : Recorded m id w)
    (ran : step platform w tx = .ok next) : Recorded m id next := by
  obtain ⟨mod, present, opened⟩ := recorded
  obtain ⟨after, presentAfter, stillOpened, -⟩ := step_progress deployment present opened ran
  exact ⟨after, presentAfter, stillOpened⟩

/-- A call that opens an incident gives it the deadline of the window it stores. -/
theorem callModule_deadline {call : ModuleCall} (present : w.modules m = some mod)
    (presentAfter : next.modules m = some after) (grown : mod.nextIncidentId < after.nextIncidentId)
    (run : w.callModule platform m sender call = .ok next) :
    (after.incidents mod.nextIncidentId).phaseDeadline =
      w.now + after.incidentPhaseWindow mod.nextIncidentId := by
  have opened {token : Address} {referenceBlock claimDeadline : Nat}
      (is : claimDeadline = w.now + w.registry.incidentTimingConfig.phaseWindow) :
      ((World.openedModule mod token w.block w.registry referenceBlock claimDeadline
        w.registry.teePcrHash).incidents mod.nextIncidentId).phaseDeadline =
      w.now + (World.openedModule mod token w.block w.registry referenceBlock claimDeadline
        w.registry.teePcrHash).incidentPhaseWindow mod.nextIncidentId := by
    dsimp only [World.openedModule]
    rw [Function.update_self, Function.update_self]
    exact is
  cases callModule_cases call run with
  | configured _ quiet noCommit noSettle done =>
      obtain ⟨found, stored, foundPresent, written, same⟩ := done.outcome
      cases present.symm.trans foundPresent
      cases presentAfter.symm.trans written.frame.1
      have := same.nextIncidentId
      omega
  | swept token recipient amount done =>
      obtain ⟨erc20, -, nextEq⟩ := done.outcome
      subst nextEq
      cases present.symm.trans presentAfter
      omega
  | opened token referenceBlock claimDeadline opening done =>
      cases present.symm.trans done.present
      obtain ⟨settled, -, -, nextEq⟩ := done.outcome
      subst nextEq
      cases presentAfter.symm.trans (setModule_self _)
      exact opened done.deadline
  | openedAndFiled token amount scoreToSpend boosterAmount referenceBlock signature middle opening
      filing claimDeadline escrow scoreFits begun done =>
      cases present.symm.trans begun.present
      obtain ⟨settled, -, -, middleEq⟩ := begun.outcome
      have between := done.present
      rw [middleEq] at between
      have filingEq := Option.some.inj (between.symm.trans (setModule_self _))
      subst filingEq
      obtain ⟨_, pulled, bonded, erc1155, -, -, -, -, nextEq⟩ := done.outcome
      subst nextEq
      cases presentAfter.symm.trans (setModule_self _)
      rw [registeredModule_incident]
      exact opened begun.deadline
  | filed token amount scoreToSpend boosterAmount referenceBlock signature joining incidentId
      escrow scoreFits joinable done =>
      cases present.symm.trans done.present
      obtain ⟨_, pulled, bonded, erc1155, -, -, -, -, nextEq⟩ := done.outcome
      subst nextEq
      cases presentAfter.symm.trans (setModule_self _)
      exact absurd grown (Nat.lt_irrefl _)
  | cancelled cancelling incidentId claimId done =>
      cases present.symm.trans done.present
      obtain ⟨base, erc20, erc1155, baseEq, -, nextEq⟩ := done.outcome
      subst baseEq nextEq
      cases presentAfter.symm.trans (setModule_self _)
      exact absurd grown (Nat.lt_irrefl _)
  | settled root poolPayouts signature settling incidentId deadline done =>
      cases present.symm.trans done.present
      obtain ⟨stored, storage, event, same, written, nextEq, -⟩ := done.outcome
      subst nextEq
      cases presentAfter.symm.trans written.frame.1
      have := same.nextIncidentId
      exact absurd grown (by rw [this]; exact Nat.lt_irrefl _)
  | corrected root poolPayouts correcting incidentId deadline done =>
      cases present.symm.trans done.present
      obtain ⟨stored, storage, event, same, written, nextEq, -⟩ := done.outcome
      subst nextEq
      cases presentAfter.symm.trans written.frame.1
      have := same.nextIncidentId
      exact absurd grown (by rw [this]; exact Nat.lt_irrefl _)
  | voided poolPayouts voiding incidentId done =>
      cases present.symm.trans done.present
      have nextEq := done.outcome
      subst nextEq
      cases presentAfter.symm.trans (setModule_self _)
      exact absurd grown (Nat.lt_irrefl _)
  | recovered claimId row proof recovering done =>
      cases present.symm.trans done.present
      obtain ⟨erc20, erc1155, -, nextEq⟩ := done.outcome
      subst nextEq
      cases presentAfter.symm.trans (setModule_self _)
      exact absurd grown (Nat.lt_irrefl _)
  | finalized claimId acceptPayout row proof finalizing done =>
      cases present.symm.trans done.present
      obtain ⟨released, paid, budget, event, release, -, notPaid, drawn, nextEq, -⟩ := done.outcome
      have stored : next.modules m = some (finalizedStorage mod claimId w.now budget) := by
        rw [nextEq]
        exact setModule_self _
      cases presentAfter.symm.trans stored
      exact absurd grown (Nat.lt_irrefl _)

theorem active_lt (firstIncident : 1 ≤ mod.nextIncidentId) (now : Nat) :
    mod.activeIncidentId now < mod.nextIncidentId := by
  by_cases idle : mod.activeIncidentId now = 0
  · omega
  · have opened := active_opened now idle
    omega

/-- A claim joins the active incident in time, or the one that it opens. -/
theorem fileClaim_joins_or_opens {token : Address}
    {amount scoreToSpend boosterAmount referenceBlock : Nat} {signature : List Byte}
    (firstIncident : 1 ≤ mod.nextIncidentId) (present : w.modules m = some mod)
    (presentAfter : next.modules m = some after)
    (run : w.fileClaim platform m sender token amount scoreToSpend boosterAmount referenceBlock
      signature = .ok next) :
    ((after.claims mod.nextClaimId).incidentId < mod.nextIncidentId ∧
      (mod.incidents (after.claims mod.nextClaimId).incidentId).root = Hash.zero ∧
      w.now ≤ (mod.incidents (after.claims mod.nextClaimId).incidentId).phaseDeadline) ∨
    (mod.nextIncidentId = (after.claims mod.nextClaimId).incidentId ∧
      mod.nextIncidentId < after.nextIncidentId) := by
  unfold World.fileClaim at run
  obtain ⟨_, -, run⟩ := (bind_ok_iff _ _ _).mp run
  obtain ⟨_, -, run⟩ := (bind_ok_iff _ _ _).mp run
  obtain ⟨_, -, run⟩ := (bind_ok_iff _ _ _).mp run
  obtain ⟨⟨middle, incidentId⟩, middleRun, run⟩ := (bind_ok_iff _ _ _).mp run
  obtain ⟨base, escrow, done⟩ :=
    registerClaim_ok token amount scoreToSpend boosterAmount incidentId run
  obtain ⟨_, pulled, bonded, erc1155, -, -, -, -, nextEq⟩ := done.outcome
  rw [nextEq] at presentAfter
  cases presentAfter.symm.trans (setModule_self _)
  have claimOf : ((World.registeredModule platform base incidentId sender token escrow
      base.claimBondAmount scoreToSpend boosterAmount).claims base.nextClaimId).incidentId =
      incidentId := by
    dsimp only [World.registeredModule]
    rw [Function.update_self]
  rcases claimIncident_ok token referenceBlock signature incidentId middleRun with
    ⟨found, claimDeadline, idEq, opened⟩ | ⟨middleEq, found, foundPresent, joinable⟩
  · cases present.symm.trans opened.present
    obtain ⟨settled, -, -, openedEq⟩ := opened.outcome
    have between := done.present
    rw [openedEq] at between
    cases between.symm.trans (setModule_self _)
    right
    exact ⟨idEq.trans claimOf.symm, Nat.lt_succ_self _⟩
  · cases present.symm.trans foundPresent
    have between := done.present
    rw [middleEq] at between
    cases present.symm.trans between
    left
    rw [claimOf]
    exact ⟨joinable.active ▸ active_lt firstIncident w.now, joinable.noRoot, joinable.inTime⟩

theorem cancelClaim_inTime (firstIncident : 1 ≤ mod.nextIncidentId)
    (present : w.modules m = some mod) (run : w.cancelClaim platform m sender = .ok next) :
    mod.activeIncidentId w.now < mod.nextIncidentId ∧
      (mod.incidents (mod.activeIncidentId w.now)).root = Hash.zero ∧
      w.now ≤ (mod.incidents (mod.activeIncidentId w.now)).phaseDeadline := by
  obtain ⟨found, incidentId, claimId, done⟩ := cancelClaim_ok run
  cases present.symm.trans done.present
  rw [done.active]
  exact ⟨done.active ▸ active_lt firstIncident w.now, done.noRoot, done.inTime⟩

/-- An accepted call concerns a recorded incident in time, or the incident that it opens. -/
theorem ClaimCall.inTime_or_opens {t : Transition World Tx} (claimCall : ClaimCall m id t)
    (reachable : Reachable platform t.before)
    (ran : Chain.step platform t.before t.action = .ok t.after) :
    (∃ mod, t.before.modules m = some mod ∧ id < mod.nextIncidentId ∧
      (mod.incidents id).root = Hash.zero ∧ t.before.now ≤ (mod.incidents id).phaseDeadline) ∨
    ∃ deadline, OpensUntil m id deadline t := by
  cases claimCall with
  | filed sender token amount scoreToSpend boosterAmount referenceBlock signature mod after action
      present presentAfter claimOf =>
      have firstIncident := (reachable_moduleInOrder reachable present).book.firstIncident
      rw [action] at ran
      obtain ⟨_, -, run⟩ := (bind_ok_iff _ _ _).mp ran
      unfold World.callModule at run
      obtain ⟨_, -, run⟩ := (bind_ok_iff _ _ _).mp run
      rcases fileClaim_joins_or_opens firstIncident present presentAfter run with
        ⟨recorded, noRoot, inTime⟩ | ⟨isNext, grown⟩
      · left
        rw [claimOf] at recorded noRoot inTime
        exact ⟨mod, present, recorded, noRoot, inTime⟩
      · right
        rw [claimOf] at isNext
        exact ⟨_, mod, after, present, presentAfter, isNext, isNext ▸ grown, rfl⟩
  | cancelled sender mod action present active =>
      have firstIncident := (reachable_moduleInOrder reachable present).book.firstIncident
      rw [action] at ran
      obtain ⟨_, -, run⟩ := (bind_ok_iff _ _ _).mp ran
      unfold World.callModule at run
      obtain ⟨_, -, run⟩ := (bind_ok_iff _ _ _).mp run
      obtain ⟨recorded, noRoot, inTime⟩ := cancelClaim_inTime firstIncident present run
      left
      rw [active] at recorded noRoot inTime
      exact ⟨mod, present, recorded, noRoot, inTime⟩

theorem OpensUntil.within {t : Transition World Tx} (opens : OpensUntil m id deadline t)
    (reachable : Reachable platform t.before)
    (ran : Chain.step platform t.before t.action = .ok t.after) :
    DeadlineWithin m id deadline t.after := by
  obtain ⟨mod, after, present, presentAfter, rfl, grown, rfl⟩ := opens
  refine ⟨after, presentAfter, grown, fun _ => le_of_eq ?_⟩
  obtain ⟨w, action, next⟩ := t
  cases step_moduleView (m := m) (reachable_deployment reachable) ran with
  | bystander _ notCalled same richer registry later =>
      cases (same.symm.trans presentAfter).symm.trans present
      exact absurd grown (Nat.lt_irrefl _)
  | deployed fresh nextEq =>
      dsimp only at present
      rw [present] at fresh
      cases fresh
  | acted sender call external run => exact callModule_deadline present presentAfter grown run

end Window

/-! ## Runs -/

section Runs

variable {platform : Platform} {m : Address} {w : World} {id deadline : Nat}
  {steps : List (Transition World Tx)}

theorem Recorded.run {next : World} (reachable : Reachable platform w) (recorded : Recorded m id w)
    (run : IsRun (Chain.step platform) w steps next) : Recorded m id next := by
  have both : Reachable platform next ∧ Recorded m id next := by
    refine run.invariant (fun world => Reachable platform world ∧ Recorded m id world)
      ⟨reachable, recorded⟩ ?_
    intro state action final holds ran
    exact ⟨holds.1.step ran, holds.2.step (reachable_deployment holds.1) ran⟩
  exact both.2

theorem DeadlineWithin.run {next : World} (reachable : Reachable platform w)
    (within : DeadlineWithin m id deadline w) (run : IsRun (Chain.step platform) w steps next) :
    DeadlineWithin m id deadline next := by
  have both : Reachable platform next ∧ DeadlineWithin m id deadline next := by
    refine run.invariant (fun world => Reachable platform world ∧ DeadlineWithin m id deadline world)
      ⟨reachable, within⟩ ?_
    intro state action final holds ran
    exact ⟨holds.1.step ran, holds.2.step (reachable_deployment holds.1) ran⟩
  exact both.2

/-- In a whole run a claim joins an incident or leaves it only until the deadline that the
incident was opened with. -/
theorem claimCall_inTime {opening t : Transition World Tx} (run : SystemRun platform steps w)
    (opened : opening ∈ steps) (opens : OpensUntil m id deadline opening) (isStep : t ∈ steps)
    (claimCall : ClaimCall m id t) : t.before.now ≤ deadline := by
  obtain ⟨earlier, since, rfl⟩ := List.append_of_mem opened
  obtain ⟨before, ran, after⟩ := run.split_at
  rcases List.mem_append.mp isStep with isEarlier | isLater
  · -- Before the opening the incident was not recorded.
    obtain ⟨first, middle, rfl⟩ := List.append_of_mem isEarlier
    obtain ⟨toStep, stepRan, toOpening⟩ := before.split_at
    have recorded : Recorded m id t.after := by
      rcases claimCall.inTime_or_opens toStep.reachable stepRan with
        ⟨mod, present, recorded, -, -⟩ | ⟨_, _, other, -, presentAfter, -, grown, -⟩
      · exact Recorded.step (reachable_deployment toStep.reachable) ⟨mod, present, recorded⟩ stepRan
      · exact ⟨other, presentAfter, grown⟩
    obtain ⟨found, foundPresent, grown⟩ :=
      recorded.run (toStep.reachable.step stepRan) toOpening
    obtain ⟨mod, _, present, -, isNext, -⟩ := opens
    cases present.symm.trans foundPresent
    omega
  · rcases List.mem_cons.mp isLater with rfl | isSince
    · obtain ⟨_, _, -, -, -, -, isDeadline⟩ := opens
      omega
    · obtain ⟨first, last, rfl⟩ := List.append_of_mem isSince
      obtain ⟨toStep, stepRan, -⟩ := after.split_at
      have reachable := before.reachable.step ran
      obtain ⟨mod, present, recorded, early⟩ :=
        (opens.within before.reachable ran).run reachable toStep
      rcases claimCall.inTime_or_opens (reachable.extend toStep) stepRan with
        ⟨found, foundPresent, -, noRoot, inTime⟩ | ⟨_, found, _, foundPresent, -, isNext, -, -⟩
      · cases present.symm.trans foundPresent
        exact inTime.trans (early noRoot)
      · cases present.symm.trans foundPresent
        omega

end Runs

end Usd8Core.Insurance
