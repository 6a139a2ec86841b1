import Usd8Core.Insurance.Solvency

/-!
# How an incident moves

Seven things can happen to a recorded incident.  Those that write its deadline or
its root happen only while it is the active one; the others only lower its count
of unresolved claims.
-/

set_option autoImplicit false

namespace Usd8Core.Insurance

open Usd8Core.Lib.ByteWords
open Usd8Core.Lib.CheckedCall
open Usd8Core.Chain
open Usd8Core.Pool

/-- The claim a call finalizes belongs to the given incidents only. -/
def FinalizesWithin (mod : DefiInsurance) (call : ModuleCall) (within : Nat → Prop) : Prop :=
  ∀ claimId acceptPayout row proof, call = .finalizeClaim claimId acceptPayout row proof →
    within (mod.claims claimId).incidentId

/-- What one call of its module makes of the incident under `id`. -/
inductive IncidentStep (m : Address) (w next : World) (mod : DefiInsurance) (call : ModuleCall)
    (id : Nat) : Incident → Prop
  | same (elsewhere : FinalizesWithin mod call (· ≠ id)) :
      IncidentStep m w next mod call id (mod.incidents id)
  | filed (claimSetHash : Hash) (active : mod.activeIncidentId w.now = id)
      (noRoot : (mod.incidents id).root = Hash.zero)
      (inTime : w.now ≤ (mod.incidents id).phaseDeadline)
      (elsewhere : FinalizesWithin mod call (· ≠ id)) :
      IncidentStep m w next mod call id { mod.incidents id with
        unresolvedClaims := (mod.incidents id).unresolvedClaims + 1
        claimSetHash := claimSetHash }
  | cancelled (claimSetHash : Hash) (active : mod.activeIncidentId w.now = id)
      (noRoot : (mod.incidents id).root = Hash.zero)
      (inTime : w.now ≤ (mod.incidents id).phaseDeadline)
      (elsewhere : FinalizesWithin mod call (· ≠ id)) :
      IncidentStep m w next mod call id { mod.incidents id with
        unresolvedClaims := (mod.incidents id).unresolvedClaims - 1
        claimSetHash := claimSetHash }
  | committed (root : Hash) (poolPayouts : List Nat) (deadline : Nat)
      (callEq : (∃ signature, call = .settleIncident root poolPayouts signature) ∨
        call = .adminCorrectSettlement root poolPayouts)
      (active : mod.activeIncidentId w.now = id) (registered : w.registry.defiInsurance = m)
      (rootNotZero : root ≠ Hash.zero)
      (phase : ((mod.incidents id).root = Hash.zero ∧ (mod.incidents id).phaseDeadline < w.now) ∨
        ((mod.incidents id).root ≠ Hash.zero ∧ w.now ≤ (mod.incidents id).phaseDeadline))
      (lengths : poolPayouts.length = (mod.incidents id).pools.length)
      (caps : w.checkPayoutCaps 0 (mod.incidents id).pools poolPayouts = .ok ())
      (later : w.now ≤ deadline) :
      IncidentStep m w next mod call id { mod.incidents id with
        poolBudget := poolPayouts, root := root, phaseDeadline := deadline }
  | voided (active : mod.activeIncidentId w.now = id)
      (hadRoot : (mod.incidents id).root ≠ Hash.zero)
      (inTime : w.now ≤ (mod.incidents id).phaseDeadline)
      (elsewhere : FinalizesWithin mod call (· ≠ id)) :
      IncidentStep m w next mod call id (World.voidedIncident (mod.incidents id) w.now)
  | recovered (claimId : Nat) (row : PayoutRow) (proof : List Hash)
      (callEq : call = .finalizeClaim claimId false row proof)
      (claimOf : (mod.claims claimId).incidentId = id)
      (counted : 1 ≤ (mod.incidents id).unresolvedClaims)
      (noSettlement : w.registry.defiInsurance ≠ m ∨ (mod.incidents id).root = Hash.zero)
      (unpaid : ∀ p, claimsPaid next p = claimsPaid w p) :
      IncidentStep m w next mod call id (World.closedIncident (mod.incidents id)
        ((mod.incidents id).unresolvedClaims - 1) w.now)
  | finalized (claimId : Nat) (acceptPayout : Bool) (row : PayoutRow) (proof : List Hash)
      (budget : List Nat) (callEq : call = .finalizeClaim claimId acceptPayout row proof)
      (claimOf : (mod.claims claimId).incidentId = id)
      (counted : 1 ≤ (mod.incidents id).unresolvedClaims)
      (hasRoot : (mod.incidents id).root ≠ Hash.zero)
      (afterDeadline : (mod.incidents id).phaseDeadline < w.now)
      (unpaid : acceptPayout = false →
        budget = (mod.incidents id).poolBudget ∧ ∀ p, claimsPaid next p = claimsPaid w p)
      (drawn : (mod.incidents id).pools.Nodup → ∀ (i : Nat) (p : Address) (before : Nat),
        (mod.incidents id).pools[i]? = some p → (mod.incidents id).poolBudget[i]? = some before →
        ∃ left, budget[i]? = some left ∧ left + claimsPaid next p = before + claimsPaid w p) :
      IncidentStep m w next mod call id
        (World.closedIncident { mod.incidents id with poolBudget := budget }
          ((mod.incidents id).unresolvedClaims - 1) w.now)

/-- What an incident fixes when it is opened. -/
structure IncidentSnapshot where
  insuredToken : Address
  referenceBlock : Nat
  openBlock : Nat
  protocolFeeShareBps : Nat
  pools : List Address
  teePcrHash : Hash

def snapshot (incident : Incident) : IncidentSnapshot :=
  ⟨incident.insuredToken, incident.referenceBlock, incident.openBlock,
    incident.protocolFeeShareBps, incident.pools, incident.teePcrHash⟩

theorem IncidentStep.snapshot {m : Address} {w next : World} {mod : DefiInsurance}
    {call : ModuleCall} {id : Nat} {incident : Incident}
    (moved : IncidentStep m w next mod call id incident) :
    snapshot incident = Insurance.snapshot (mod.incidents id) := by
  cases moved <;> rfl

/-- The incidents of a module before and after one of its calls. -/
structure ModuleProgress (m : Address) (w next : World) (mod : DefiInsurance) (call : ModuleCall)
    (after : DefiInsurance) : Prop where
  incidents : ∀ id, id < mod.nextIncidentId →
    IncidentStep m w next mod call id (after.incidents id)
  windows : ∀ id, id < mod.nextIncidentId →
    after.incidentPhaseWindow id = mod.incidentPhaseWindow id
  opened : after.nextIncidentId = mod.nextIncidentId ∨
    (after.nextIncidentId = mod.nextIncidentId + 1 ∧ mod.activeIncidentId w.now = 0 ∧
      w.registry.defiInsurance = m)
  fresh : mod.nextIncidentId < after.nextIncidentId → ∃ token referenceBlock,
    snapshot (after.incidents mod.nextIncidentId) = ⟨token, referenceBlock,
      truncate 64 w.block.number, w.registry.protocolFeeConfig.claimProtocolFeeShareBps,
      w.registry.coverPools, w.registry.teePcrHash⟩ ∧
    (after.incidents mod.nextIncidentId).root = (mod.incidents mod.nextIncidentId).root ∧
    (after.insuredTokens token).maxCoverageBps ≠ 0

section Progress

variable {platform : Platform} {m sender : Address} {w next : World} {mod after : DefiInsurance}
  {call : ModuleCall}

theorem FinalizesWithin.ofOther {within : Nat → Prop}
    (other : ∀ claimId acceptPayout row proof, call ≠ .finalizeClaim claimId acceptPayout row proof) :
    FinalizesWithin mod call within :=
  fun claimId acceptPayout row proof callEq => absurd callEq (other claimId acceptPayout row proof)

theorem ModuleProgress.ofSame (incidents : after.incidents = mod.incidents)
    (windows : after.incidentPhaseWindow = mod.incidentPhaseWindow)
    (nextIncidentId : after.nextIncidentId = mod.nextIncidentId)
    (other : ∀ claimId acceptPayout row proof,
      call ≠ .finalizeClaim claimId acceptPayout row proof) :
    ModuleProgress m w next mod call after := by
  refine ⟨?_, fun id _ => by rw [windows], Or.inl nextIncidentId, fun grown => by omega⟩
  intro id _
  rw [incidents]
  exact .same (.ofOther other)

/-- One incident was written. -/
theorem ModuleProgress.ofWritten (incidentId : Nat) (incident : Incident)
    (incidents : after.incidents = Function.update mod.incidents incidentId incident)
    (windows : after.incidentPhaseWindow = mod.incidentPhaseWindow)
    (nextIncidentId : after.nextIncidentId = mod.nextIncidentId)
    (own : FinalizesWithin mod call (· = incidentId))
    (written : IncidentStep m w next mod call incidentId incident) :
    ModuleProgress m w next mod call after := by
  refine ⟨?_, fun id _ => by rw [windows], Or.inl nextIncidentId, fun grown => by omega⟩
  intro id _
  rw [incidents]
  by_cases same : id = incidentId
  · subst same
    rw [Function.update_self]
    exact written
  · rw [Function.update_of_ne same]
    refine .same ?_
    intro claimId acceptPayout row proof callEq sameId
    exact same (sameId.symm.trans (own claimId acceptPayout row proof callEq))

theorem Opened.progress {token : Address} {referenceBlock claimDeadline : Nat} (final : World)
    (other : ∀ claimId acceptPayout row proof,
      call ≠ .finalizeClaim claimId acceptPayout row proof)
    (done : Opened m w next mod token referenceBlock claimDeadline w.registry.teePcrHash) :
    ModuleProgress m w final mod call (World.openedModule mod token w.block w.registry referenceBlock
      claimDeadline w.registry.teePcrHash) := by
  have written : (World.openedModule mod token w.block w.registry referenceBlock claimDeadline
      w.registry.teePcrHash).incidents mod.nextIncidentId =
      { mod.incidents mod.nextIncidentId with
        insuredToken := token
        referenceBlock := referenceBlock
        openBlock := truncate 64 w.block.number
        phaseDeadline := claimDeadline
        protocolFeeShareBps := w.registry.protocolFeeConfig.claimProtocolFeeShareBps
        pools := w.registry.coverPools
        teePcrHash := w.registry.teePcrHash } := Function.update_self ..
  refine ⟨?_, ?_, Or.inr ⟨rfl, done.idle, done.registered⟩,
    fun _ => ⟨token, referenceBlock, by rw [written]; rfl, by rw [written], done.listed⟩⟩
  · intro id old
    have differ : id ≠ mod.nextIncidentId := by omega
    have kept : (World.openedModule mod token w.block w.registry referenceBlock claimDeadline
        w.registry.teePcrHash).incidents id = mod.incidents id := Function.update_of_ne differ ..
    rw [kept]
    exact .same (.ofOther other)
  · intro id old
    have differ : id ≠ mod.nextIncidentId := by omega
    exact Function.update_of_ne differ ..

/-- A commit's new deadline is never in the past. -/
theorem Committed.later {incidentId deadline : Nat} {root : Hash} {poolPayouts : List Nat}
    (done : Committed m w next mod incidentId root poolPayouts deadline) : w.now ≤ deadline := by
  rw [done.deadlineEq]
  split
  · exact Nat.le_add_right _ _
  · exact le_rfl

theorem Committed.progress {incidentId deadline : Nat} {root : Hash} {poolPayouts : List Nat}
    (callEq : (∃ signature, call = .settleIncident root poolPayouts signature) ∨
      call = .adminCorrectSettlement root poolPayouts)
    (done : Committed m w next mod incidentId root poolPayouts deadline) :
    ∃ after, next.modules m = some after ∧ ModuleProgress m w next mod call after := by
  obtain ⟨stored, after, event, same, written, nextEq, -⟩ := done.outcome
  have own : FinalizesWithin mod call (· = incidentId) := by
    apply FinalizesWithin.ofOther
    rcases callEq with ⟨signature, callEq⟩ | callEq
    · simp [callEq]
    · simp [callEq]
  subst nextEq
  refine ⟨after, written.frame.1, .ofWritten incidentId _ same.incidents same.windows
    same.nextIncidentId own ?_⟩
  refine .committed root poolPayouts deadline callEq done.active done.registered done.rootNotZero ?_
    done.lengths done.caps done.later
  exact done.phase.imp (fun first => ⟨first.1, first.2.1⟩) id

theorem Recovered.progress {claimId : Nat} {row : PayoutRow} {proof : List Hash}
    (done : Recovered m sender w next mod claimId) :
    ∃ after, next.modules m = some after ∧
      ModuleProgress m w next mod (.finalizeClaim claimId false row proof) after := by
  obtain ⟨erc20, erc1155, -, nextEq⟩ := done.outcome
  subst nextEq
  refine ⟨_, setModule_self _, .ofWritten (mod.claims claimId).incidentId _ rfl rfl rfl ?_
    (.recovered claimId row proof rfl rfl done.counted done.noSettlement ?_)⟩
  · intro otherId acceptPayout otherRow otherProof callEq
    cases callEq
    rfl
  · intro p
    exact claimsPaid_emitOwn p _ trivial

theorem Finalized.progress {claimId : Nat} {acceptPayout : Bool} {row : PayoutRow}
    {proof : List Hash}
    (done : Finalized platform m sender w next mod claimId acceptPayout row proof) :
    ∃ after, next.modules m = some after ∧
      ModuleProgress m w next mod (.finalizeClaim claimId acceptPayout row proof) after := by
  obtain ⟨released, paid, budget, event, release, -, notPaid, drawn, nextEq, eventEq⟩ :=
    done.outcome
  have releasedPaid : ∀ p, claimsPaid released p = claimsPaid w p := by
    obtain ⟨_, _, _, _, _, -, -, -, -, releasedEq⟩ := release.outcome
    intro p
    rw [releasedEq]
    rfl
  have own : ModuleEvent event := by
    rcases eventEq with eventEq | ⟨eligible, eventEq⟩
    · rw [eventEq]
      trivial
    · rw [eventEq]
      trivial
  have finalPaid : ∀ p, claimsPaid next p = claimsPaid paid p := by
    intro p
    rw [nextEq, claimsPaid_emitOwn p event own]
    rfl
  have stored : next.modules m = some (finalizedStorage mod claimId w.now budget) := by
    rw [nextEq]
    exact setModule_self _
  refine ⟨_, stored, .ofWritten (mod.claims claimId).incidentId _ rfl rfl rfl ?_
    (.finalized claimId acceptPayout row proof budget rfl rfl done.counted done.hasRoot
      done.checked.afterDeadline ?_ ?_)⟩
  · intro otherId otherAccept otherRow otherProof callEq
    cases callEq
    rfl
  · intro declined
    have paidEq := notPaid (Or.inl declined)
    have storedRelease : released.modules m = some (releasedStorage mod claimId) := by
      obtain ⟨_, _, _, _, _, -, -, -, -, releasedEq⟩ := release.outcome
      rw [releasedEq]
      exact setModule_self _
    refine ⟨?_, fun p => by rw [finalPaid, paidEq, releasedPaid]⟩
    have same := drawn.stored
    rw [paidEq, storedRelease] at same
    have sameIncident := congrArg (fun storage : DefiInsurance =>
      (storage.incidents (mod.claims claimId).incidentId).poolBudget) (Option.some.inj same)
    rw [withBudget_incident] at sameIncident
    exact sameIncident.symm
  · intro distinct i p before atPool atBudget
    obtain ⟨left, atLeft, paidLeft⟩ := drawn.drawn distinct i p before atPool atBudget
    exact ⟨left, atLeft, by rw [finalPaid, paidLeft, releasedPaid]⟩

theorem callModule_progress (call : ModuleCall) (present : w.modules m = some mod)
    (run : w.callModule platform m sender call = .ok next) :
    ∃ after, next.modules m = some after ∧ ModuleProgress m w next mod call after := by
  cases callModule_cases call run with
  | configured _ quiet noCommit noSettle done =>
      obtain ⟨found, after, foundPresent, written, same⟩ := done.outcome
      cases present.symm.trans foundPresent
      exact ⟨after, written.frame.1, .ofSame same.incidents same.windows same.nextIncidentId quiet⟩
  | swept token recipient amount done =>
      obtain ⟨erc20, -, nextEq⟩ := done.outcome
      subst nextEq
      exact ⟨mod, present, .ofSame rfl rfl rfl (by simp)⟩
  | opened token referenceBlock claimDeadline opening done =>
      cases present.symm.trans done.present
      have progress : ModuleProgress m w next mod (.openClaimIncident token referenceBlock) _ :=
        done.progress next (by simp)
      obtain ⟨settled, -, -, nextEq⟩ := done.outcome
      subst nextEq
      exact ⟨_, setModule_self _, progress⟩
  | openedAndFiled token amount scoreToSpend boosterAmount referenceBlock signature middle opening
      filing claimDeadline escrow scoreFits opened done =>
      cases present.symm.trans opened.present
      have progress : ModuleProgress m w next mod (.fileClaim token amount scoreToSpend
          boosterAmount referenceBlock signature) _ := opened.progress next (by simp)
      obtain ⟨settled, -, -, middleEq⟩ := opened.outcome
      have between := done.present
      rw [middleEq] at between
      have filingEq := Option.some.inj (between.symm.trans (setModule_self _))
      subst filingEq
      obtain ⟨_, pulled, bonded, erc1155, -, -, -, -, nextEq⟩ := done.outcome
      subst nextEq
      refine ⟨_, setModule_self _, ?_, progress.windows, progress.opened, ?_⟩
      · intro id old
        have differ : id ≠ mod.nextIncidentId := by omega
        rw [registeredModule_other _ _ _ _ _ _ _ _ _ differ]
        exact progress.incidents id old
      · intro grown
        rw [registeredModule_incident]
        exact progress.fresh grown
  | filed token amount scoreToSpend boosterAmount referenceBlock signature joining incidentId
      escrow scoreFits joinable done =>
      cases present.symm.trans done.present
      obtain ⟨_, pulled, bonded, erc1155, -, -, -, -, nextEq⟩ := done.outcome
      subst nextEq
      exact ⟨_, setModule_self _, .ofWritten incidentId _ rfl rfl rfl (.ofOther (by simp))
        (.filed _ joinable.active joinable.noRoot joinable.inTime (.ofOther (by simp)))⟩
  | cancelled cancelling incidentId claimId done =>
      cases present.symm.trans done.present
      obtain ⟨base, erc20, erc1155, baseEq, -, nextEq⟩ := done.outcome
      subst baseEq nextEq
      exact ⟨_, setModule_self _, .ofWritten incidentId _ rfl rfl rfl (.ofOther (by simp))
        (.cancelled _ done.active done.noRoot done.inTime (.ofOther (by simp)))⟩
  | settled root poolPayouts signature settling incidentId deadline done =>
      cases present.symm.trans done.present
      exact done.progress (Or.inl ⟨signature, rfl⟩)
  | corrected root poolPayouts correcting incidentId deadline done =>
      cases present.symm.trans done.present
      exact done.progress (Or.inr rfl)
  | voided poolPayouts voiding incidentId done =>
      cases present.symm.trans done.present
      have nextEq := done.outcome
      subst nextEq
      exact ⟨_, setModule_self _, .ofWritten incidentId _ rfl rfl rfl (.ofOther (by simp))
        (.voided done.active done.hadRoot done.inTime (.ofOther (by simp)))⟩
  | recovered claimId row proof recovering done =>
      cases present.symm.trans done.present
      exact done.progress
  | finalized claimId acceptPayout row proof finalizing done =>
      cases present.symm.trans done.present
      exact done.progress

/-- A step of the system as an opened incident sees it: either its module's storage
is untouched, or its module was called. -/
theorem step_progress {tx : Tx} {id : Nat} (deployment : Deployment w)
    (present : w.modules m = some mod) (opened : id < mod.nextIncidentId)
    (ran : step platform w tx = .ok next) :
    ∃ after, next.modules m = some after ∧ id < after.nextIncidentId ∧ w.now ≤ next.now ∧
      (((∀ sender call, tx ≠ .module m sender call) ∧ after = mod) ∨
        ∃ sender call, tx = .module m sender call ∧
          w.callModule platform m sender call = .ok next ∧
          ModuleProgress m w next mod call after) := by
  cases step_moduleView (m := m) deployment ran with
  | bystander _ notCalled same richer registry later =>
      exact ⟨mod, same.trans present, opened, later, Or.inl ⟨notCalled, rfl⟩⟩
  | deployed fresh nextEq =>
      rw [present] at fresh
      cases fresh
  | acted sender call external run =>
      obtain ⟨after, presentAfter, progress⟩ := callModule_progress call present run
      refine ⟨after, presentAfter, ?_, ?_, Or.inr ⟨sender, call, rfl, run, progress⟩⟩
      · rcases progress.opened with same | ⟨grown, -⟩ <;> omega
      · rw [World.now, World.now, (effects_frame (callModule_effects call run)).block]

/-- What an incident fixed when it was opened stays fixed. -/
theorem step_snapshot {tx : Tx} {id : Nat} (deployment : Deployment w)
    (present : w.modules m = some mod) (opened : id < mod.nextIncidentId)
    (ran : step platform w tx = .ok next) :
    ∃ after, next.modules m = some after ∧ id < after.nextIncidentId ∧
      snapshot (after.incidents id) = snapshot (mod.incidents id) ∧
      after.incidentPhaseWindow id = mod.incidentPhaseWindow id := by
  obtain ⟨after, presentAfter, stillOpened, -, moved⟩ := step_progress deployment present opened ran
  refine ⟨after, presentAfter, stillOpened, ?_⟩
  rcases moved with ⟨-, same⟩ | ⟨sender, call, -, -, progress⟩
  · rw [same]
    exact ⟨rfl, rfl⟩
  · exact ⟨(progress.incidents id opened).snapshot, progress.windows id opened⟩

end Progress

end Usd8Core.Insurance
