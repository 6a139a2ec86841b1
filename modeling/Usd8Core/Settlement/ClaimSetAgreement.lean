import Usd8Core.Settlement.ClaimSetBook
import Usd8Core.Insurance.Draws

/-!
# The module and the kernel agree on the claim set

In every run the events of an incident, read back from the log, replay to the digest
the module has stored, and their live claims are the module's unresolved ones.
-/

set_option autoImplicit false

namespace Usd8Core.Settlement

open Usd8Core.Lib.ByteWords
open Usd8Core.Lib.CheckedCall
open Usd8Core.Lib.RollingHash
open Usd8Core.Lib.TraceRun
open Usd8Core.Chain
open Usd8Core.Kernel
open Usd8Core.Insurance

/-! ## The book over the log -/

/-- The invariant: the events of the incident match the module, and a cancellation is always
about a filed claim. -/
structure ClaimSetLogged (platform : Platform) (clean : Prop) (m : Address) (w : World)
    (mod : DefiInsurance) (id : Nat) : Prop where
  book : ClaimSetBook platform.keccak256 clean (incidentEvents w m mod id) mod id
  cancelsFiled : ∀ log ∈ claimLogs w m, ∀ claimId user,
    log.event = .claimCancelled claimId user → (mod.claims claimId).user ≠ Address.zero
  opened : (mod.incidents id).openBlock ≤ w.block.number

section Logged

variable {platform : Platform} {clean clean' : Prop} {m sender : Address} {w next : World}
  {mod after : DefiInsurance} {id : Nat}

/-- New logs add their events; what the old ones say does not change. -/
theorem incidentEvents_append (logged : ClaimSetLogged platform clean m w mod id)
    (grown : ClaimsGrown mod after) (added : List Log)
    (logs : claimLogs next m = claimLogs w m ++ added) :
    incidentEvents next m after id =
      incidentEvents w m mod id ++ added.filterMap (incidentEvent after.claims id) := by
  unfold incidentEvents
  rw [logs, List.filterMap_append]
  congr 1
  apply List.filterMap_congr
  intro log member
  unfold incidentEvent cancellationEvent
  congr 1
  split
  next claimId user event =>
    have filed := logged.cancelsFiled log member claimId user event
    simp only [grown.incidents claimId filed]
  next => rfl

theorem ClaimSetLogged.filedLogs (logged : ClaimSetLogged platform clean m w mod id)
    (grown : ClaimsGrown mod after) (added : List Log)
    (logs : claimLogs next m = claimLogs w m ++ added)
    (addedFiled : ∀ log ∈ added, ∀ claimId user, log.event = .claimCancelled claimId user →
      (after.claims claimId).user ≠ Address.zero) :
    ∀ log ∈ claimLogs next m, ∀ claimId user, log.event = .claimCancelled claimId user →
      (after.claims claimId).user ≠ Address.zero := by
  intro log member claimId user event
  rw [logs] at member
  rcases List.mem_append.mp member with old | new
  · have filed := logged.cancelsFiled log old claimId user event
    rw [grown.users claimId filed]
    exact filed
  · exact addedFiled log new claimId user event

/-- A call that logs nothing about the incident. -/
theorem ClaimSetLogged.quiet (logged : ClaimSetLogged platform clean m w mod id)
    (escrow : EscrowBook mod) (grown : ClaimsGrown mod after) (added : List Log)
    (logs : claimLogs next m = claimLogs w m ++ added)
    (silent : added.filterMap (incidentEvent after.claims id) = [])
    (addedFiled : ∀ log ∈ added, ∀ claimId user, log.event = .claimCancelled claimId user →
      (after.claims claimId).user ≠ Address.zero)
    (later : w.block.number ≤ next.block.number)
    (noNew : ∀ claimId, OfIncident after id claimId → OfIncident mod id claimId)
    (hash : (after.incidents id).claimSetHash = (mod.incidents id).claimSetHash)
    (opened : (after.incidents id).openBlock = (mod.incidents id).openBlock ∨
      ((∀ claimId, ¬ OfIncident mod id claimId) ∧
        (after.incidents id).openBlock ≤ next.block.number))
    (claimIds : ∀ user, mod.claimIdByIncidentAndUser id user ≠ 0 →
      after.claimIdByIncidentAndUser id user = mod.claimIdByIncidentAndUser id user)
    (narrowed : clean' → clean ∧ ∀ claimId, OfIncident mod id claimId →
      (after.claims claimId).resolved = (mod.claims claimId).resolved) :
    ClaimSetLogged platform clean' m next after id := by
  have sameEvents : incidentEvents next m after id = incidentEvents w m mod id := by
    rw [incidentEvents_append logged grown added logs, silent, List.append_nil]
  refine ⟨?_, logged.filedLogs grown added logs addedFiled, ?_⟩
  · rw [sameEvents]
    refine logged.book.quiet escrow grown noNew hash ?_ claimIds narrowed
    intro event member
    rcases opened with same | ⟨none, -⟩
    · rw [same]
      exact logged.book.sinceOpen event member
    · rw [logged.book.eq_nil none] at member
      cases member
  · rcases opened with same | ⟨-, before⟩
    · rw [same]
      exact logged.opened.trans later
    · exact before

/-- The storage of the module changed, but nothing that concerns its claims. -/
theorem ClaimSetLogged.sameClaims (logged : ClaimSetLogged platform clean m w mod id)
    (escrow : EscrowBook mod) (claims : after.claims = mod.claims)
    (claimIds : after.claimIdByIncidentAndUser = mod.claimIdByIncidentAndUser)
    (hash : (after.incidents id).claimSetHash = (mod.incidents id).claimSetHash)
    (opened : (after.incidents id).openBlock = (mod.incidents id).openBlock ∨
      ((∀ claimId, ¬ OfIncident mod id claimId) ∧
        (after.incidents id).openBlock ≤ next.block.number))
    (logs : claimLogs next m = claimLogs w m) (later : w.block.number ≤ next.block.number)
    (narrowed : clean' → clean) : ClaimSetLogged platform clean' m next after id := by
  refine logged.quiet escrow ?_ [] (by rw [logs, List.append_nil]) rfl (by simp) later ?_ hash
    opened ?_ ?_
  · exact ⟨fun _ _ => by rw [claims], fun _ _ => by rw [claims],
      fun _ resolved _ => by rw [claims]; exact resolved⟩
  · intro claimId
    rw [OfIncident, claims]
    exact fun ofIncident => ofIncident
  · intro user _
    rw [claimIds]
  · intro isClean
    exact ⟨narrowed isClean, fun _ _ => by rw [claims]⟩

/-- A claim of the incident, or of another, was finalized. -/
theorem ClaimSetLogged.finalized {claimId : Nat}
    (logged : ClaimSetLogged platform clean m w mod id) (escrow : EscrowBook mod)
    (claims : after.claims =
      Function.update mod.claims claimId { mod.claims claimId with resolved := true })
    (claimIds : after.claimIdByIncidentAndUser = mod.claimIdByIncidentAndUser)
    (hash : (after.incidents id).claimSetHash = (mod.incidents id).claimSetHash)
    (opened : (after.incidents id).openBlock = (mod.incidents id).openBlock)
    (logs : claimLogs next m = claimLogs w m) (later : w.block.number ≤ next.block.number)
    (narrowed : clean' → clean ∧ (mod.claims claimId).incidentId ≠ id) :
    ClaimSetLogged platform clean' m next after id := by
  have sameFields : ∀ other, (after.claims other).user = (mod.claims other).user ∧
      (after.claims other).incidentId = (mod.claims other).incidentId ∧
      ((mod.claims other).resolved = true → (after.claims other).resolved = true) := by
    intro other
    rw [claims]
    by_cases same : other = claimId
    · subst same
      simp
    · simp [Function.update_of_ne same]
  refine logged.quiet escrow ⟨fun other _ => (sameFields other).1,
      fun other _ => (sameFields other).2.1, fun other resolved _ => (sameFields other).2.2 resolved⟩
    [] (by rw [logs, List.append_nil]) rfl (by simp) later ?_ hash (Or.inl opened) ?_ ?_
  · intro other
    rw [OfIncident, OfIncident, (sameFields other).1, (sameFields other).2.1]
    exact fun ofIncident => ofIncident
  · intro user _
    rw [claimIds]
  · intro isClean
    obtain ⟨wasClean, elsewhere⟩ := narrowed isClean
    refine ⟨wasClean, fun other ofIncident => ?_⟩
    have differ : other ≠ claimId := by
      rintro rfl
      exact elsewhere ofIncident.2
    rw [claims, Function.update_of_ne differ]

/-- An event logged next stands after every event of the incident. -/
theorem before_next (ordered : LogsOrdered w) (event : ClaimEvent)
    (block : event.blockNumber = w.block.number) (index : event.logIndex = w.nextLogIndex) :
    ∀ earlier ∈ incidentEvents w m mod id, Before earlier event := by
  intro earlier member
  obtain ⟨log, logMember, decoded⟩ := List.mem_filterMap.mp member
  obtain ⟨earlierBlock, earlierIndex⟩ := incidentEvent_position decoded
  have precedes := ordered.beforeNext m log.event log (List.mem_filter.mp logMember).1
  unfold Precedes at precedes
  unfold Before notAfter
  dsimp only at precedes ⊢
  omega

theorem registeredModule_grown (escrow : EscrowBook mod) (platform : Platform) (incidentId : Nat)
    (sender token : Address) (amount bondAmount scoreToSpend boosterAmount : Nat) :
    ClaimsGrown mod (World.registeredModule platform mod incidentId sender token amount bondAmount
      scoreToSpend boosterAmount) := by
  have kept : ∀ claimId, (mod.claims claimId).user ≠ Address.zero →
      (World.registeredModule platform mod incidentId sender token amount bondAmount scoreToSpend
        boosterAmount).claims claimId = mod.claims claimId := by
    intro claimId filed
    exact Function.update_of_ne (Nat.ne_of_lt (escrow.inside filed).2) ..
  refine ⟨fun claimId filed => ?_, fun claimId filed => ?_, fun claimId resolved filed => ?_⟩
  · rw [kept claimId filed]
  · rw [kept claimId filed]
  · rw [kept claimId filed]
    exact resolved

theorem ClaimSetLogged.registered {token : Address}
    {incidentId escrow scoreToSpend boosterAmount : Nat}
    (logged : ClaimSetLogged platform clean m w mod id) (escrowBook : EscrowBook mod)
    (ordered : LogsOrdered w) (narrowed : clean' → clean) (notZero : sender ≠ Address.zero)
    (noClaim : mod.claimIdByIncidentAndUser incidentId sender = 0)
    (scoreFits : scoreToSpend < uintBound 256)
    (done : Registered platform m sender w next mod token incidentId escrow scoreToSpend
      boosterAmount) :
    ClaimSetLogged platform clean' m next (World.registeredModule platform mod incidentId sender
      token escrow mod.claimBondAmount scoreToSpend boosterAmount) id := by
  have grown := registeredModule_grown escrowBook platform incidentId sender token escrow
    mod.claimBondAmount scoreToSpend boosterAmount
  obtain ⟨_, pulled, bonded, erc1155, -, -, -, -, nextEq⟩ := done.outcome
  have logs : claimLogs next m = claimLogs w m ++ [⟨m, w.block.number, w.nextLogIndex,
      .claimRegistered mod.nextClaimId incidentId sender escrow scoreToSpend boosterAmount⟩] := by
    rw [nextEq, claimLogs_emit, if_pos ⟨rfl, trivial⟩]
    rfl
  have later : w.block.number ≤ next.block.number := by
    rw [nextEq]
    exact le_rfl
  have noCancel : ∀ log ∈ [(⟨m, w.block.number, w.nextLogIndex, .claimRegistered mod.nextClaimId
      incidentId sender escrow scoreToSpend boosterAmount⟩ : Log)], ∀ claimId user,
      log.event = .claimCancelled claimId user → ((World.registeredModule platform mod incidentId
        sender token escrow mod.claimBondAmount scoreToSpend boosterAmount).claims claimId).user ≠
          Address.zero := by
    intro log member claimId user event
    rw [List.mem_singleton.mp member] at event
    cases event
  by_cases own : id = incidentId
  · subst own
    have events : incidentEvents next m (World.registeredModule platform mod id sender token escrow
        mod.claimBondAmount scoreToSpend boosterAmount) id = incidentEvents w m mod id ++
          [filedEvent mod sender escrow scoreToSpend boosterAmount w.block.number
            w.nextLogIndex] := by
      rw [incidentEvents_append logged grown _ logs]
      simp [incidentEvent, registrationEvent, cancellationEvent, filedEvent]
    refine ⟨?_, logged.filedLogs grown _ logs noCancel, ?_⟩
    · rw [events]
      exact logged.book.filed escrowBook narrowed notZero noClaim
        (filedEvent_fits _ _ done.idFits done.escrowFits scoreFits done.boostersFit) logged.opened
        (before_next ordered _ rfl rfl)
    · rw [registeredModule_incident]
      exact logged.opened.trans later
  · have incidents : (World.registeredModule platform mod incidentId sender token escrow
        mod.claimBondAmount scoreToSpend boosterAmount).incidents id = mod.incidents id :=
      registeredModule_other mod incidentId id sender token escrow _ scoreToSpend boosterAmount own
    refine logged.quiet escrowBook grown _ logs ?_ noCancel later ?_ (by rw [incidents])
      (Or.inl (by rw [incidents])) ?_ ?_
    · simp [incidentEvent, registrationEvent, cancellationEvent, Ne.symm own]
    · intro claimId ofIncident
      by_cases same : claimId = mod.nextClaimId
      · have onIncident := ofIncident.2
        rw [same] at onIncident
        change (Function.update mod.claims mod.nextClaimId _ mod.nextClaimId).incidentId = id
          at onIncident
        rw [Function.update_self] at onIncident
        exact absurd onIncident.symm own
      · have kept : (World.registeredModule platform mod incidentId sender token escrow
            mod.claimBondAmount scoreToSpend boosterAmount).claims claimId = mod.claims claimId :=
          Function.update_of_ne same ..
        rw [OfIncident, kept] at ofIncident
        exact ofIncident
    · intro user _
      change Function.update mod.claimIdByIncidentAndUser incidentId _ id user = _
      rw [Function.update_of_ne own]
    · intro isClean
      refine ⟨narrowed isClean, fun claimId ofIncident => ?_⟩
      have older : claimId ≠ mod.nextClaimId := Nat.ne_of_lt (escrowBook.inside ofIncident.1).2
      exact congrArg Claim.resolved (Function.update_of_ne older ..)

theorem ClaimSetLogged.cancelled {incidentId claimId : Nat}
    (logged : ClaimSetLogged platform clean m w mod id) (escrowBook : EscrowBook mod)
    (ordered : LogsOrdered w) (narrowed : clean' → clean)
    (done : Cancelled platform m sender w next mod incidentId claimId) :
    ClaimSetLogged platform clean' m next (refundedModule (World.cancelledModule platform mod
      incidentId claimId sender ((mod.incidents incidentId).unresolvedClaims - 1))
      (mod.claims claimId) (mod.incidents incidentId).insuredToken) id := by
  generalize afterEq : refundedModule (World.cancelledModule platform mod incidentId claimId sender
    ((mod.incidents incidentId).unresolvedClaims - 1)) (mod.claims claimId)
    (mod.incidents incidentId).insuredToken = after
  have resolves := done.resolves escrowBook
  rw [afterEq] at resolves
  have sameFields : ∀ other, (after.claims other).user = (mod.claims other).user ∧
      (after.claims other).incidentId = (mod.claims other).incidentId ∧
      ((mod.claims other).resolved = true → (after.claims other).resolved = true) := by
    intro other
    rw [resolves.claims]
    by_cases same : other = claimId
    · subst same
      simp
    · simp [Function.update_of_ne same]
  have grown : ClaimsGrown mod after := ⟨fun other _ => (sameFields other).1,
    fun other _ => (sameFields other).2.1, fun other resolved _ => (sameFields other).2.2 resolved⟩
  have onIncident : (mod.claims claimId).incidentId = incidentId := by
    obtain ⟨-, -, onIncident⟩ := escrowBook.claimOf incidentId sender
      (by rw [done.claimOfSender]; exact done.claimNotZero)
    rw [done.claimOfSender] at onIncident
    exact onIncident
  obtain ⟨base, erc20, erc1155, -, -, nextEq⟩ := done.outcome
  have logs : claimLogs next m = claimLogs w m ++ [⟨m, w.block.number, w.nextLogIndex,
      .claimCancelled claimId sender⟩] := by
    rw [nextEq, claimLogs_emit, if_pos ⟨rfl, trivial⟩]
    rfl
  have later : w.block.number ≤ next.block.number := by
    rw [nextEq]
    exact le_rfl
  have filed : ∀ log ∈ [(⟨m, w.block.number, w.nextLogIndex, .claimCancelled claimId sender⟩ : Log)],
      ∀ other user, log.event = .claimCancelled other user →
        (after.claims other).user ≠ Address.zero := by
    intro log member other user event
    rw [List.mem_singleton.mp member] at event
    cases event
    rw [(sameFields claimId).1]
    exact resolves.filed
  by_cases own : id = incidentId
  · subst own
    have events : incidentEvents next m after id = incidentEvents w m mod id ++
        [cancelledEvent claimId sender w.block.number w.nextLogIndex] := by
      rw [incidentEvents_append logged grown _ logs]
      simp [incidentEvent, registrationEvent, cancellationEvent, cancelledEvent,
        (sameFields claimId).2.1, onIncident]
    have idFits := logged.book.idFits claimId
      ((logged.book.registered claimId).mpr ⟨resolves.filed, onIncident⟩)
    refine ⟨?_, logged.filedLogs grown _ logs filed, ?_⟩
    · rw [events, ← afterEq]
      exact logged.book.cancelled escrowBook narrowed done.claimOfSender done.claimNotZero
        done.unresolved (cancelledEvent_fits sender _ _ idFits) logged.opened
        (before_next ordered _ rfl rfl)
    · rw [← afterEq]
      have written := cancelledModule_incident platform mod id claimId sender
        ((mod.incidents id).unresolvedClaims - 1)
      exact (le_of_eq (congrArg Incident.openBlock written)).trans (logged.opened.trans later)
  · have elsewhere : id ≠ (mod.claims claimId).incidentId := by
      rw [onIncident]
      exact own
    have incidents := resolves.otherIncident id elsewhere
    refine logged.quiet escrowBook grown _ logs ?_ filed later ?_ (by rw [incidents])
      (Or.inl (by rw [incidents])) ?_ ?_
    · simp [incidentEvent, registrationEvent, cancellationEvent, (sameFields claimId).2.1,
        onIncident, Ne.symm own]
    · intro other
      rw [OfIncident, OfIncident, (sameFields other).1, (sameFields other).2.1]
      exact fun ofIncident => ofIncident
    · intro user _
      rw [← afterEq]
      change Function.update mod.claimIdByIncidentAndUser incidentId _ id user = _
      rw [Function.update_of_ne own]
    · intro isClean
      refine ⟨narrowed isClean, fun other ofIncident => ?_⟩
      have differ : other ≠ claimId := by
        rintro rfl
        exact elsewhere ofIncident.2.symm
      rw [resolves.claims, Function.update_of_ne differ]

/-- A write to an incident that keeps its commitment and its open block. -/
theorem setIncident_commitment (id : Nat) (base : DefiInsurance) (incidentId : Nat)
    (incident : Incident)
    (hash : incident.claimSetHash = (base.incidents incidentId).claimSetHash)
    (openBlock : incident.openBlock = (base.incidents incidentId).openBlock) :
    ((base.setIncident incidentId incident).incidents id).claimSetHash =
        (base.incidents id).claimSetHash ∧
      ((base.setIncident incidentId incident).incidents id).openBlock =
        (base.incidents id).openBlock := by
  unfold DefiInsurance.setIncident
  dsimp only
  by_cases own : id = incidentId
  · subst own
    rw [Function.update_self]
    exact ⟨hash, openBlock⟩
  · rw [Function.update_of_ne own]
    exact ⟨rfl, rfl⟩

theorem ClaimSetLogged.opened_ok {token : Address} {referenceBlock claimDeadline : Nat}
    (logged : ClaimSetLogged platform clean m w mod id) (escrow : EscrowBook mod)
    (noPool : w.pools m = none) (narrowed : clean' → clean)
    (done : Opened m w next mod token referenceBlock claimDeadline w.registry.teePcrHash) :
    ClaimSetLogged platform clean' m next (World.openedModule mod token w.block w.registry
      referenceBlock claimDeadline w.registry.teePcrHash) id := by
  obtain ⟨settled, settledRun, only, nextEq⟩ := done.outcome
  have sameBlock : next.block = w.block := by
    rw [nextEq]
    exact only.block
  have logs : claimLogs next m = claimLogs w m := by
    rw [nextEq, claimLogs_emit, if_neg fun counted => counted.2, List.append_nil]
    exact (settleListedPools_quiet noPool settledRun).logs
  have later : w.block.number ≤ next.block.number := by rw [sameBlock]
  have incidents : id ≠ mod.nextIncidentId → (World.openedModule mod token w.block w.registry
      referenceBlock claimDeadline w.registry.teePcrHash).incidents id = mod.incidents id :=
    fun differ => Function.update_of_ne differ ..
  have written : (World.openedModule mod token w.block w.registry referenceBlock claimDeadline
      w.registry.teePcrHash).incidents mod.nextIncidentId =
      { mod.incidents mod.nextIncidentId with
        insuredToken := token
        referenceBlock := referenceBlock
        openBlock := truncate 64 w.block.number
        phaseDeadline := claimDeadline
        protocolFeeShareBps := w.registry.protocolFeeConfig.claimProtocolFeeShareBps
        pools := w.registry.coverPools
        teePcrHash := w.registry.teePcrHash } := Function.update_self ..
  refine logged.sameClaims escrow rfl rfl ?_ ?_ logs later narrowed
  · by_cases fresh : id = mod.nextIncidentId
    · rw [fresh, written]
    · rw [incidents fresh]
  · by_cases fresh : id = mod.nextIncidentId
    · right
      constructor
      · rintro claimId ⟨filed, onIncident⟩
        have opened := escrow.incidentOf claimId filed
        omega
      · rw [fresh, written, truncate_eq_self w.block.number_lt, sameBlock]
    · exact Or.inl (by rw [incidents fresh])

theorem opened_logsOrdered {token : Address} {referenceBlock claimDeadline : Nat}
    (ordered : LogsOrdered w)
    (done : Opened m w next mod token referenceBlock claimDeadline w.registry.teePcrHash) :
    LogsOrdered next := by
  obtain ⟨settled, settledRun, -, nextEq⟩ := done.outcome
  have settledOrdered : LogsOrdered settled := by
    apply foldlM_preserves _ LogsOrdered _ _ w settled ordered settledRun
    intro state p after before ran
    exact callPool_logsOrdered p m _ before ran
  have stored : LogsOrdered (settled.setModule m (World.openedModule mod token w.block w.registry
      referenceBlock claimDeadline w.registry.teePcrHash)) := settledOrdered.ofSame rfl le_rfl
  rw [nextEq]
  exact stored.emit m _

theorem Committed.logged {incidentId deadline : Nat} {root : Hash} {poolPayouts : List Nat}
    (logged : ClaimSetLogged platform clean m w mod id) (escrow : EscrowBook mod)
    (narrowed : clean' → clean)
    (done : Committed m w next mod incidentId root poolPayouts deadline) :
    ∃ after, next.modules m = some after ∧ ClaimSetLogged platform clean' m next after id := by
  obtain ⟨stored, after, event, same, written, nextEq, eventEq⟩ := done.outcome
  have uncounted : ¬ (m = m ∧ ClaimSetEvent event) := by
    rintro ⟨-, counted⟩
    rcases eventEq with ⟨teePcrHash, rfl⟩ | rfl <;> exact counted
  have incident : (after.incidents id).claimSetHash = (mod.incidents id).claimSetHash ∧
      (after.incidents id).openBlock = (mod.incidents id).openBlock := by
    rw [same.incidents]
    exact setIncident_commitment id mod incidentId _ rfl rfl
  have storedBlock : stored.block = w.block := by
    rcases written with storedEq | ⟨_, storedEq⟩ <;> rw [storedEq] <;> rfl
  subst nextEq
  refine ⟨after, written.frame.1, logged.sameClaims escrow same.claims same.claimIds incident.1
    (Or.inl incident.2) ?_ (le_of_eq (congrArg Block.number storedBlock).symm) narrowed⟩
  rw [claimLogs_emit, if_neg uncounted, List.append_nil]
  exact written.quiet.logs

theorem callModule_logged {call : ModuleCall} (deployment : Deployment w)
    (inOrder : ModuleInOrder m w mod) (ordered : LogsOrdered w)
    (present : w.modules m = some mod) (external : w.IsExternal sender)
    (logged : ClaimSetLogged platform clean m w mod id) (narrowed : clean' → clean)
    (elsewhere : clean' → FinalizesWithin mod call (· ≠ id))
    (run : w.callModule platform m sender call = .ok next) :
    ∃ after, next.modules m = some after ∧ ClaimSetLogged platform clean' m next after id := by
  have noPool : w.pools m = none := by
    have apart := deployment.apart m (by rw [present]; rfl)
    simpa using apart
  have escrow := inOrder.book
  cases callModule_cases call run with
  | configured _ quiet noCommit noSettle done =>
      obtain ⟨found, after, foundPresent, written, same⟩ := done.outcome
      cases present.symm.trans foundPresent
      have sameBlock : next.block = w.block := by
        rcases written with nextEq | ⟨_, nextEq⟩ <;> rw [nextEq] <;> rfl
      exact ⟨after, written.frame.1, logged.sameClaims escrow same.claims same.claimIds
        (by rw [same.incidents]) (Or.inl (by rw [same.incidents])) written.quiet.logs
        (le_of_eq (congrArg Block.number sameBlock).symm) narrowed⟩
  | swept token recipient amount done =>
      obtain ⟨erc20, -, nextEq⟩ := done.outcome
      subst nextEq
      refine ⟨mod, present, logged.sameClaims escrow rfl rfl rfl (Or.inl rfl) ?_ le_rfl narrowed⟩
      rw [claimLogs_emit, if_neg fun counted => counted.2, List.append_nil]
      rfl
  | opened token referenceBlock claimDeadline opening done =>
      cases present.symm.trans done.present
      have after := logged.opened_ok escrow noPool narrowed done
      obtain ⟨settled, -, -, nextEq⟩ := done.outcome
      subst nextEq
      exact ⟨_, setModule_self _, after⟩
  | openedAndFiled token amount scoreToSpend boosterAmount referenceBlock signature middle opening
      filing claimDeadline escrowed scoreFits opened done =>
      cases present.symm.trans opened.present
      have between := logged.opened_ok escrow noPool narrowed opened
      have middleOrdered := opened_logsOrdered ordered opened
      obtain ⟨settled, -, -, middleEq⟩ := opened.outcome
      have stored := done.present
      rw [middleEq] at stored
      have filingEq := Option.some.inj (stored.symm.trans (setModule_self _))
      subst filingEq
      have after := between.registered (escrow.opened token w.block w.registry referenceBlock
        claimDeadline w.registry.teePcrHash) middleOrdered (fun isClean => isClean) external.1
        (escrow.noClaimOf mod.nextIncidentId sender le_rfl) scoreFits done
      obtain ⟨_, pulled, bonded, erc1155, -, -, -, -, nextEq⟩ := done.outcome
      subst nextEq
      exact ⟨_, setModule_self _, after⟩
  | filed token amount scoreToSpend boosterAmount referenceBlock signature joining incidentId
      escrowed scoreFits joinable done =>
      cases present.symm.trans done.present
      have after := logged.registered escrow ordered narrowed external.1 joinable.noClaim scoreFits
        done
      obtain ⟨_, pulled, bonded, erc1155, -, -, -, -, nextEq⟩ := done.outcome
      subst nextEq
      exact ⟨_, setModule_self _, after⟩
  | cancelled cancelling incidentId claimId done =>
      cases present.symm.trans done.present
      have after := logged.cancelled escrow ordered narrowed done
      obtain ⟨base, erc20, erc1155, baseEq, -, nextEq⟩ := done.outcome
      subst baseEq nextEq
      exact ⟨_, setModule_self _, after⟩
  | settled root poolPayouts signature settling incidentId deadline done =>
      cases present.symm.trans done.present
      exact Committed.logged logged escrow narrowed done
  | corrected root poolPayouts correcting incidentId deadline done =>
      cases present.symm.trans done.present
      exact Committed.logged logged escrow narrowed done
  | voided poolPayouts voiding incidentId done =>
      cases present.symm.trans done.present
      have nextEq := done.outcome
      subst nextEq
      have incident := setIncident_commitment id mod incidentId
        (World.voidedIncident (mod.incidents incidentId) w.now) rfl rfl
      refine ⟨_, setModule_self _, logged.sameClaims escrow rfl rfl incident.1 (Or.inl incident.2)
        ?_ le_rfl narrowed⟩
      rw [claimLogs_emit, if_neg fun counted => counted.2, List.append_nil]
      rfl
  | recovered claimId row proof recovering done =>
      cases present.symm.trans done.present
      have resolves := done.resolves
      have incident := setIncident_commitment id
        (mod.setClaim claimId { mod.claims claimId with resolved := true })
        (mod.claims claimId).incidentId
        (World.closedIncident (mod.incidents (mod.claims claimId).incidentId)
          ((mod.incidents (mod.claims claimId).incidentId).unresolvedClaims - 1) w.now) rfl rfl
      have ended : clean' → clean ∧ (mod.claims claimId).incidentId ≠ id := fun isClean =>
        ⟨narrowed isClean, elsewhere isClean claimId false row proof rfl⟩
      obtain ⟨erc20, erc1155, -, nextEq⟩ := done.outcome
      subst nextEq
      refine ⟨_, setModule_self _, logged.finalized escrow resolves.claims rfl incident.1
        incident.2 ?_ le_rfl ended⟩
      rw [claimLogs_emit, if_neg fun counted => counted.2, List.append_nil]
      rfl
  | finalized claimId acceptPayout row proof finalizing done =>
      cases present.symm.trans done.present
      have ended : clean' → clean ∧ (mod.claims claimId).incidentId ≠ id := fun isClean =>
        ⟨narrowed isClean, elsewhere isClean claimId acceptPayout row proof rfl⟩
      obtain ⟨released, paid, budget, event, release, whenPaid, whenNot, drawn, nextEq, eventEq⟩ :=
        done.outcome
      have uncounted : ¬ (m = m ∧ ClaimSetEvent event) := by
        rintro ⟨-, counted⟩
        rcases eventEq with rfl | ⟨eligible, rfl⟩ <;> exact counted
      have resolves := finalizedStorage_resolves w.now budget done.filed done.unresolved
      have incident := setIncident_commitment id (releasedStorage mod claimId)
        (mod.claims claimId).incidentId
        (World.closedIncident
          { mod.incidents (mod.claims claimId).incidentId with poolBudget := budget }
          ((mod.incidents (mod.claims claimId).incidentId).unresolvedClaims - 1) w.now) rfl rfl
      obtain ⟨_, _, _, _, _, -, -, -, -, releasedEq⟩ := release.outcome
      have releasedQuiet : Quiet m w released := by
        rw [releasedEq]
        exact Quiet.ofSame rfl rfl
      have paidQuiet : Quiet m released paid := by
        by_cases both : acceptPayout = true ∧ row.eligible = true
        · exact payAccepted_quiet _ _ row (releasedQuiet.pools.trans noPool)
            (whenPaid both.1 both.2)
        · have notBoth : acceptPayout = false ∨ row.eligible = false := by
            cases acceptPayout <;> simp_all
          rw [whenNot notBoth]
          exact Quiet.refl
      have sameBlock : next.block = w.block := by
        rw [nextEq]
        change paid.block = w.block
        rw [drawn.block, releasedEq]
        rfl
      refine ⟨_, by rw [nextEq]; exact setModule_self _, logged.finalized escrow resolves.claims
        rfl incident.1 incident.2 ?_ (le_of_eq (congrArg Block.number sameBlock).symm) ended⟩
      rw [nextEq, claimLogs_emit, if_neg uncounted, List.append_nil]
      exact (releasedQuiet.trans paidQuiet).logs

/-- A module without a claim logged is in agreement. -/
theorem ClaimSetLogged.initial (silent : claimLogs w m = []) :
    ClaimSetLogged platform clean m w DefiInsurance.initial id := by
  have none : incidentEvents w m DefiInsurance.initial id = [] := by
    unfold incidentEvents
    rw [silent]
    rfl
  have noClaim : ∀ claimId, ¬ OfIncident DefiInsurance.initial id claimId :=
    fun claimId filed => filed.1 rfl
  refine ⟨?_, by simp [silent], Nat.zero_le _⟩
  rw [none]
  exact {
    replays := ⟨_, replays_nil⟩
    fits := by simp
    hash := rfl
    sinceOpen := by simp
    registered := by
      intro claimId
      constructor
      · intro member
        cases member
      · intro filed
        exact absurd filed (noClaim claimId)
    increasing := List.Pairwise.nil
    users := fun _ member => by cases member
    known := fun _ member => by cases member
    resolved := fun _ member => by cases member
    current := fun _ member => by cases member
    untouched := fun _ _ member => by cases member }

/-- No claim of the incident is finalized in the steps. -/
def NoneFinalized (m : Address) (id : Nat) (steps : List (Transition World Tx)) : Prop :=
  ∀ t ∈ steps, ∀ acceptPayout, ¬ Finalizes m id acceptPayout t

theorem step_logged {tx : Tx} (reachable : Reachable platform w)
    (before : ∀ mod, w.modules m = some mod → ClaimSetLogged platform clean m w mod id)
    (narrowed : clean' → clean)
    (notFinal : clean' → ∀ acceptPayout, ¬ Finalizes m id acceptPayout ⟨w, tx, next⟩)
    (ran : step platform w tx = .ok next) (present : next.modules m = some after) :
    ClaimSetLogged platform clean' m next after id := by
  have deployment := reachable_deployment reachable
  cases step_moduleView (m := m) deployment ran with
  | bystander _ notCalled same richer registry later =>
      rw [same] at present
      have logged := before after present
      have noPool : w.pools m = none := by
        simpa using deployment.apart m (by rw [present]; rfl)
      exact logged.sameClaims (reachable_moduleInOrder reachable present).book rfl rfl rfl
        (Or.inl rfl) (step_claimLogs noPool notCalled ran) (step_blockNumber ran) narrowed
  | deployed fresh nextEq =>
      obtain ⟨_, external, -⟩ := (bind_ok_iff _ _ _).mp ran
      have noPool : w.pools m = none :=
        Option.isNone_iff_eq_none.mp (requireExternal_ok external).2.2
      have silent := reachable_undeployed reachable fresh noPool
      subst nextEq
      cases present.symm.trans (setModule_self _)
      exact ClaimSetLogged.initial (w := w.setModule m _) silent
  | acted sender call external run =>
      obtain ⟨mod, found⟩ := Option.isSome_iff_exists.mp (callModule_deployed call run)
      have elsewhere : clean' → FinalizesWithin mod call (· ≠ id) := by
        rintro isClean claimId acceptPayout row proof rfl onIncident
        exact notFinal isClean acceptPayout ⟨sender, claimId, row, proof, mod, rfl, found, onIncident⟩
      obtain ⟨stored, storedPresent, logged⟩ := callModule_logged deployment
        (reachable_moduleInOrder reachable found) (reachable_logsOrdered reachable) found external
        (before mod found) narrowed elsewhere run
      cases present.symm.trans storedPresent
      exact logged

/-- In every run the events of an incident match the module. -/
theorem run_logged {steps : List (Transition World Tx)} (run : SystemRun platform steps w)
    (present : w.modules m = some mod) :
    ClaimSetLogged platform (NoneFinalized m id steps) m w mod id := by
  obtain ⟨block, timelock, admin, erc20, erc1155, run⟩ := run
  induction run generalizing mod with
  | nil => cases present
  | snoc steps middle tx final earlier last ih =>
      have reachable : Reachable platform middle :=
        ⟨steps, block, timelock, admin, erc20, erc1155, earlier⟩
      apply step_logged reachable (fun found foundPresent => ih foundPresent) _ _ last present
      · exact fun none t member => none t (List.mem_append_left _ member)
      · intro none acceptPayout
        exact none _ (by simp) acceptPayout

/-! ## The live claims -/

theorem mem_liveIds {keccak256 : List Byte → Hash} {events : List ClaimEvent} (claimId : Nat)
    (book : ClaimSetBook keccak256 clean events mod id) (isClean : clean) :
    claimId ∈ (liveRegistrations events).map ClaimEvent.claimId ↔
      IsLive (mod.claims claimId) ∧ (mod.claims claimId).incidentId = id := by
  constructor
  · intro member
    obtain ⟨event, live, rfl⟩ := List.mem_map.mp member
    obtain ⟨registered, uncancelled⟩ := mem_liveRegistrations.mp live
    have listed := mem_registeredIds registered
    have filed := (book.registered event.claimId).mp listed
    exact ⟨⟨filed.1, book.untouched isClean event.claimId listed uncancelled⟩, filed.2⟩
  · rintro ⟨⟨filed, unresolved⟩, onIncident⟩
    obtain ⟨event, registered, same⟩ :=
      List.mem_map.mp ((book.registered claimId).mpr ⟨filed, onIncident⟩)
    refine List.mem_map.mpr ⟨event, mem_liveRegistrations.mpr ⟨registered, ?_⟩, same⟩
    rw [same]
    intro cancelled
    rw [book.resolved claimId cancelled] at unresolved
    cases unresolved

theorem liveIds_sublist (events : List ClaimEvent) :
    ((liveRegistrations events).map ClaimEvent.claimId).Sublist (registeredIds events) :=
  List.filter_sublist.map ClaimEvent.claimId

theorem liveIds_nodup {keccak256 : List Byte → Hash} {events : List ClaimEvent}
    (book : ClaimSetBook keccak256 clean events mod id) :
    ((liveRegistrations events).map ClaimEvent.claimId).Nodup :=
  (book.increasing.imp Nat.ne_of_lt).sublist (liveIds_sublist events)

/-- The counter of the incident is the number of its live claims. -/
theorem liveIds_length {keccak256 : List Byte → Hash} {events : List ClaimEvent}
    (book : ClaimSetBook keccak256 clean events mod id) (escrow : EscrowBook mod)
    (isClean : clean) :
    ((liveRegistrations events).map ClaimEvent.claimId).length =
      (mod.incidents id).unresolvedClaims := by
  have sameSet : ((liveRegistrations events).map ClaimEvent.claimId).toFinset =
      (liveClaims mod.claims mod.nextClaimId).filter
        fun claimId => (mod.claims claimId).incidentId = id := by
    ext claimId
    rw [List.mem_toFinset, mem_liveIds claimId book isClean, Finset.mem_filter,
      mem_liveClaims_iff]
    constructor
    · rintro ⟨live, onIncident⟩
      exact ⟨⟨(escrow.inside live.1).2, live⟩, onIncident⟩
    · rintro ⟨⟨-, live⟩, onIncident⟩
      exact ⟨live, onIncident⟩
  rw [← List.toFinset_card_of_nodup (liveIds_nodup book), sameSet, escrow.counts id, liveSum,
    Finset.card_filter]
  rfl

/-- Two live claims never have one user. -/
theorem liveUsers_nodup {keccak256 : List Byte → Hash} {events : List ClaimEvent}
    (book : ClaimSetBook keccak256 clean events mod id) :
    (((liveRegistrations events).map ClaimEvent.claimId).map
      fun claimId => (mod.claims claimId).user).Nodup := by
  apply List.Nodup.map_on _ (liveIds_nodup book)
  intro first firstMember second secondMember sameUser
  obtain ⟨event, live, rfl⟩ := List.mem_map.mp firstMember
  obtain ⟨other, otherLive, rfl⟩ := List.mem_map.mp secondMember
  rw [book.users event (mem_liveRegistrations.mp live).1,
    book.users other (mem_liveRegistrations.mp otherLive).1] at sameUser
  rw [← book.current event live, ← book.current other otherLive, sameUser]

end Logged

/-- The claim events of an incident, as the enclave reads them back at the end of any run,
agree with what the module has stored about its claims. -/
theorem claim_set_agreement {platform : Platform} {steps : List (Transition World Tx)} {w : World}
    (run : SystemRun platform steps w) {m : Address} {mod : DefiInsurance}
    (present : w.modules m = some mod) (id : Nat) :
    (∀ toBlock, w.block.number ≤ toBlock →
      readInputEvents w.logs m id (mod.incidents id).openBlock toBlock =
        incidentEvents w m mod id) ∧
    ∃ replay, replayClaimSet platform.keccak256 (incidentEvents w m mod id) = .ok replay ∧
      replay.hash = hashHex (mod.incidents id).claimSetHash ∧
      replay.liveClaimIds.Sublist (registeredIds (incidentEvents w m mod id)) ∧
      (NoneFinalized m id steps →
        replay.unresolvedClaims = (mod.incidents id).unresolvedClaims ∧
        ∀ claimId, claimId ∈ replay.liveClaimIds ↔
          IsLive (mod.claims claimId) ∧ (mod.claims claimId).incidentId = id) ∧
      replay.liveClaimIds.Nodup ∧
      (replay.liveClaimIds.map fun claimId => (mod.claims claimId).user).Nodup ∧
      ∀ (scores : Nat → Nat) (user : Address),
        settlementInputHash platform.keccak256
          (replay.liveClaimIds.map fun claimId => ((mod.claims claimId).user, scores claimId)) ≠
            .error (.duplicateInputUser user) := by
  have logged : ClaimSetLogged platform (NoneFinalized m id steps) m w mod id :=
    run_logged run present
  have ordered := reachable_logsOrdered run.reachable
  have escrow := (reachable_moduleInOrder run.reachable present).book
  obtain ⟨state, replays⟩ := logged.book.replays
  obtain ⟨replay, replayed, hash, liveIds, count⟩ :=
    replays.replayed platform.keccak256 logged.book.fits
  have users := liveUsers_nodup logged.book
  refine ⟨?_, replay, replayed, by rw [hash, logged.book.hash], ?_, ?_, ?_, ?_, ?_⟩
  · intro toBlock covered
    apply readInputEvents_eq ordered
    · intro event member
      obtain ⟨log, logMember, decoded⟩ := List.mem_filterMap.mp member
      have mined := ordered.mined log (List.mem_filter.mp logMember).1
      rw [← (incidentEvent_position decoded).1] at mined
      exact ⟨logged.book.sinceOpen event member, mined.trans covered⟩
    · intro log member claimId user event
      have filed := logged.cancelsFiled log member claimId user event
      rw [← registeredIds, logged.book.registered]
      exact ⟨fun ofIncident => ofIncident.2, fun onIncident => ⟨filed, onIncident⟩⟩
  · rw [liveIds]
    exact liveIds_sublist _
  · intro isClean
    rw [count, liveIds]
    exact ⟨liveIds_length logged.book escrow isClean,
      fun claimId => mem_liveIds claimId logged.book isClean⟩
  · rw [liveIds]
    exact liveIds_nodup logged.book
  · rw [liveIds]
    exact users
  · intro scores user
    apply settlementInputHash_avoids_duplicate
    rw [liveIds, List.map_map, List.map_map]
    rw [List.map_map] at users
    exact users

/-- Alice files, cancels and files again, under a fresh id. -/
def refile : List Tx :=
  SmallDeployment.stake ++ SmallDeployment.claim.dropLast ++
    [.module SmallDeployment.module SmallDeployment.alice .cancelClaim,
      .module SmallDeployment.module SmallDeployment.alice
        (.fileClaim SmallDeployment.insuredToken 400 80 2 0 [])]

def isFinalize : Tx → Bool
  | .module _ _ (.finalizeClaim _ _ _ _) => true
  | _ => false

theorem smallDeployment_claim_set :
    ∃ steps w mod, SystemRun SmallDeployment.platform steps w ∧
      w.modules SmallDeployment.module = some mod ∧
      (mod.claims 1).resolved = true ∧ (mod.claims 3).user = SmallDeployment.alice ∧
      ∃ replay, replayClaimSet SmallDeployment.platform.keccak256
          (incidentEvents w SmallDeployment.module mod 1) = .ok replay ∧
        replay.hash = hashHex (mod.incidents 1).claimSetHash ∧
        replay.unresolvedClaims = 2 ∧ 3 ∈ replay.liveClaimIds ∧ 1 ∉ replay.liveClaimIds := by
  have passed : endsIn (step SmallDeployment.platform) SmallDeployment.start refile
      (fun steps w => steps.all (fun t => !isFinalize t.action) &&
        (w.modules SmallDeployment.module).any fun mod =>
          (mod.claims 1).resolved && decide ((mod.claims 3).user = SmallDeployment.alice) &&
            decide (IsLive (mod.claims 3) ∧ (mod.claims 3).incidentId = 1) &&
            decide ((mod.incidents 1).unresolvedClaims = 2)) = true := by decide +kernel
  obtain ⟨steps, w, run, checked⟩ := endsIn_isRun refile _ passed
  simp only [Bool.and_eq_true, Option.any_eq_true, List.all_eq_true, decide_eq_true_eq] at checked
  obtain ⟨quiet, mod, present, ⟨⟨resolved, user⟩, live⟩, count⟩ := checked
  have systemRun : SystemRun SmallDeployment.platform steps w := ⟨_, _, _, _, _, run⟩
  have none : NoneFinalized SmallDeployment.module 1 steps := by
    rintro t member acceptPayout ⟨sender, claimId, row, proof, found, action, -⟩
    have notFinal := quiet t member
    rw [action] at notFinal
    cases notFinal
  obtain ⟨-, replay, replayed, hash, -, clean, -⟩ := claim_set_agreement systemRun present 1
  obtain ⟨unresolved, members⟩ := clean none
  refine ⟨steps, w, mod, systemRun, present, resolved, user, replay, replayed, hash,
    unresolved.trans count, (members 3).mpr live, ?_⟩
  rw [members 1]
  rintro ⟨isLive, -⟩
  rw [isLive.2] at resolved
  cases resolved

end Usd8Core.Settlement
