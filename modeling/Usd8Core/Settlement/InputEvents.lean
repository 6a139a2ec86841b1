import Usd8Core.Insurance.LogOrder
import Usd8Core.Kernel.AllocateEvents

/-!
# The claim events read back from the chain

`read_input_events` scans twice: a registration names its incident in a topic, a
cancellation only its claim.  Put in order by position, the two scans are the claim
events of the incident as the chain logged them.
-/

set_option autoImplicit false

namespace Usd8Core.Settlement

open Usd8Core.Lib.ByteWords
open Usd8Core.Chain
open Usd8Core.Kernel
open Usd8Core.Insurance

/-- A `ClaimRegistered` log of the incident, decoded. -/
def registrationEvent (incidentId : Nat) (log : Log) : Option ClaimEvent :=
  match log.event with
  | .claimRegistered claimId id user amount scoreToSpend boosterAmount =>
      if id = incidentId then
        some ⟨.register, claimId, user, amount, scoreToSpend, boosterAmount, log.blockNumber,
          log.logIndex⟩
      else none
  | _ => none

/-- A `ClaimCancelled` log of one of the claims, decoded. -/
def cancellationEvent (isClaim : Nat → Prop) [DecidablePred isClaim] (log : Log) :
    Option ClaimEvent :=
  match log.event with
  | .claimCancelled claimId user =>
      if isClaim claimId then
        some ⟨.cancel, claimId, user, 0, 0, 0, log.blockNumber, log.logIndex⟩
      else none
  | _ => none

/-- `(first.block_number, first.log_index) <= (second.block_number, second.log_index)`. -/
def positionLe (first second : ClaimEvent) : Prop :=
  first.blockNumber < second.blockNumber ∨
    (first.blockNumber = second.blockNumber ∧ first.logIndex ≤ second.logIndex)

instance (first second : ClaimEvent) : Decidable (positionLe first second) :=
  inferInstanceAs (Decidable (_ ∨ _))

/-- The logs of a contract in a range of blocks. -/
def contractLogs (logs : List Log) (contract : Address) (fromBlock toBlock : Nat) : List Log :=
  logs.filter fun log =>
    log.emitter = contract ∧ fromBlock ≤ log.blockNumber ∧ log.blockNumber ≤ toBlock

def readInputEvents (logs : List Log) (defiInsurance : Address)
    (incidentId fromBlock toBlock : Nat) : List ClaimEvent :=
  let scanned := contractLogs logs defiInsurance fromBlock toBlock
  let registrations := scanned.filterMap (registrationEvent incidentId)
  let claimIds := registrations.map ClaimEvent.claimId
  let cancellations := scanned.filterMap (cancellationEvent fun claimId => claimId ∈ claimIds)
  (registrations ++ cancellations).insertionSort positionLe

/-! ## The events of an incident -/

/-- What a log says about the incident: a registration on it, or the cancellation of one of
its claims. -/
def incidentEvent (claims : Nat → Claim) (incidentId : Nat) (log : Log) : Option ClaimEvent :=
  (registrationEvent incidentId log).or
    (cancellationEvent (fun claimId => (claims claimId).incidentId = incidentId) log)

/-- The claim events of an incident in the order of the chain. -/
def incidentEvents (w : World) (m : Address) (mod : DefiInsurance) (incidentId : Nat) :
    List ClaimEvent :=
  (claimLogs w m).filterMap (incidentEvent mod.claims incidentId)

section Reading

variable {w : World} {m : Address} {mod : DefiInsurance} {incidentId : Nat}

/-- The event keeps the position of its log. -/
theorem incidentEvent_position {claims : Nat → Claim} {log : Log} {event : ClaimEvent}
    (decoded : incidentEvent claims incidentId log = some event) :
    event.blockNumber = log.blockNumber ∧ event.logIndex = log.logIndex := by
  unfold incidentEvent registrationEvent cancellationEvent at decoded
  cases logged : log.event <;> rw [logged] at decoded <;> simp at decoded
  · obtain ⟨-, rfl⟩ := decoded
    exact ⟨rfl, rfl⟩
  · obtain ⟨-, rfl⟩ := decoded
    exact ⟨rfl, rfl⟩

/-- Strictly before, as the replay of the events asks for. -/
def Before (first second : ClaimEvent) : Prop :=
  ¬ notAfter second (first.blockNumber, first.logIndex)

theorem incidentEvents_before (ordered : LogsOrdered w) :
    (incidentEvents w m mod incidentId).Pairwise Before := by
  unfold incidentEvents
  rw [List.pairwise_filterMap]
  refine (ordered.pairwise.sublist List.filter_sublist).imp ?_
  intro first second precedes event decoded other otherDecoded
  obtain ⟨block, index⟩ := incidentEvent_position decoded
  obtain ⟨otherBlock, otherIndex⟩ := incidentEvent_position otherDecoded
  unfold Precedes at precedes
  unfold Before notAfter
  rw [block, index, otherBlock, otherIndex]
  omega

/-- Sorting a rearrangement of events in chain order puts them back. -/
theorem insertionSort_eq (events shuffled : List ClaimEvent) (ordered : events.Pairwise Before)
    (permuted : shuffled.Perm events) : shuffled.insertionSort positionLe = events := by
  have total : Std.Total positionLe := by
    constructor
    intro first second
    unfold positionLe
    omega
  have transitive : IsTrans ClaimEvent positionLe := by
    constructor
    intro first second third
    unfold positionLe
    omega
  have sorted : events.Pairwise positionLe := by
    refine ordered.imp ?_
    intro first second before
    unfold Before notAfter at before
    unfold positionLe
    omega
  have distinct : (events.map fun event => (event.blockNumber, event.logIndex)).Nodup := by
    refine List.pairwise_map.mpr (ordered.imp ?_)
    intro first second before same
    simp only [Prod.mk.injEq] at same
    unfold Before notAfter at before
    omega
  refine List.Perm.eq_of_pairwise ?_ (List.pairwise_insertionSort _ shuffled) sorted
    ((List.perm_insertionSort _ shuffled).trans permuted)
  intro first second firstMember secondMember below above
  have inEvents : first ∈ events :=
    permuted.mem_iff.mp ((List.mem_insertionSort _).mp firstMember)
  refine List.inj_on_of_nodup_map distinct inEvents secondMember ?_
  unfold positionLe at below above
  simp only [Prod.mk.injEq]
  omega

theorem registrations_eq {claims : Nat → Claim} (log : Log) :
    (incidentEvent claims incidentId log).filter (fun event => event.kind = .register) =
      registrationEvent incidentId log := by
  unfold incidentEvent registrationEvent cancellationEvent
  cases log.event <;> simp only [Option.or_none, Option.none_or] <;> try rfl
  · split <;> rfl
  · split <;> rfl

theorem cancellations_eq {claims : Nat → Claim} (log : Log) :
    (incidentEvent claims incidentId log).filter (fun event => ¬ event.kind = .register) =
      cancellationEvent (fun claimId => (claims claimId).incidentId = incidentId) log := by
  unfold incidentEvent registrationEvent cancellationEvent
  cases log.event <;> simp only [Option.or_none, Option.none_or] <;> try rfl
  · split <;> rfl
  · split <;> rfl

/-- A scan of a range that covers the events of the incident decodes what a pass over all
claim logs of the module decodes. -/
theorem scanned_eq (decode : Log → Option ClaimEvent) (fromBlock toBlock : Nat)
    (counted : ∀ log event, decode log = some event → ClaimSetEvent log.event)
    (covered : ∀ log ∈ claimLogs w m, ∀ event, decode log = some event →
      fromBlock ≤ log.blockNumber ∧ log.blockNumber ≤ toBlock) :
    (contractLogs w.logs m fromBlock toBlock).filterMap decode =
      (claimLogs w m).filterMap decode := by
  unfold contractLogs
  unfold claimLogs at covered ⊢
  rw [List.filterMap_filter, List.filterMap_filter]
  apply List.filterMap_congr
  intro log member
  cases decoded : decode log with
  | none => simp
  | some event =>
      have isCounted := counted log event decoded
      by_cases own : log.emitter = m
      · have inRange := covered log
          (List.mem_filter.mpr ⟨member, by simp [own, isCounted]⟩) event decoded
        simp [own, isCounted, inRange]
      · simp [own]

theorem registrationEvent_counted (log : Log) (event : ClaimEvent)
    (decoded : registrationEvent incidentId log = some event) : ClaimSetEvent log.event := by
  unfold registrationEvent at decoded
  cases logged : log.event <;> rw [logged] at decoded <;> simp at decoded
  trivial

theorem cancellationEvent_counted (isClaim : Nat → Prop) [DecidablePred isClaim] (log : Log)
    (event : ClaimEvent) (decoded : cancellationEvent isClaim log = some event) :
    ClaimSetEvent log.event := by
  unfold cancellationEvent at decoded
  cases logged : log.event <;> rw [logged] at decoded <;> simp at decoded
  trivial

theorem cancellationEvent_claim {isClaim : Nat → Prop} [DecidablePred isClaim] {log : Log}
    {event : ClaimEvent} (decoded : cancellationEvent isClaim log = some event) :
    isClaim event.claimId ∧ ∃ user, log.event = .claimCancelled event.claimId user := by
  unfold cancellationEvent at decoded
  cases logged : log.event <;> rw [logged] at decoded <;> simp at decoded
  obtain ⟨isOne, rfl⟩ := decoded
  exact ⟨isOne, _, rfl⟩

/-- The two scans, put in order, are the events of the incident. -/
theorem readInputEvents_eq (ordered : LogsOrdered w) (fromBlock toBlock : Nat)
    (covered : ∀ event ∈ incidentEvents w m mod incidentId,
      fromBlock ≤ event.blockNumber ∧ event.blockNumber ≤ toBlock)
    (registered : ∀ log ∈ claimLogs w m, ∀ claimId user, log.event = .claimCancelled claimId user →
      (claimId ∈ (registrationsOf (incidentEvents w m mod incidentId)).map ClaimEvent.claimId ↔
        (mod.claims claimId).incidentId = incidentId)) :
    readInputEvents w.logs m incidentId fromBlock toBlock =
      incidentEvents w m mod incidentId := by
  have covers : ∀ log ∈ claimLogs w m, ∀ event,
      incidentEvent mod.claims incidentId log = some event →
        fromBlock ≤ log.blockNumber ∧ log.blockNumber ≤ toBlock := by
    intro log member event decoded
    obtain ⟨block, -⟩ := incidentEvent_position decoded
    rw [← block]
    exact covered event (List.mem_filterMap.mpr ⟨log, member, decoded⟩)
  have registrations : (contractLogs w.logs m fromBlock toBlock).filterMap
      (registrationEvent incidentId) =
        (incidentEvents w m mod incidentId).filter fun event => event.kind = .register := by
    rw [incidentEvents, List.filter_filterMap, scanned_eq]
    · exact List.filterMap_congr fun log _ => (registrations_eq log).symm
    · exact registrationEvent_counted
    · intro log member event decoded
      exact covers log member event (by rw [incidentEvent, decoded, Option.some_or])
  have cancellations : (contractLogs w.logs m fromBlock toBlock).filterMap
      (cancellationEvent fun claimId =>
        claimId ∈ (registrationsOf (incidentEvents w m mod incidentId)).map ClaimEvent.claimId) =
        (incidentEvents w m mod incidentId).filter fun event => ¬ event.kind = .register := by
    have sameClaims : ∀ log ∈ claimLogs w m,
        cancellationEvent (fun claimId => claimId ∈ (registrationsOf
          (incidentEvents w m mod incidentId)).map ClaimEvent.claimId) log =
        cancellationEvent (fun claimId => (mod.claims claimId).incidentId = incidentId) log := by
      intro log member
      unfold cancellationEvent
      split
      next claimId user logged => simp only [registered log member claimId user logged]
      next => rfl
    rw [scanned_eq, List.filterMap_congr sameClaims]
    · conv_rhs => rw [incidentEvents, List.filter_filterMap]
      exact List.filterMap_congr fun log _ => (cancellations_eq log).symm
    · exact cancellationEvent_counted _
    · intro log member event decoded
      rw [sameClaims log member] at decoded
      obtain ⟨-, user, logged⟩ := cancellationEvent_claim decoded
      refine covers log member event ?_
      rw [incidentEvent, decoded, registrationEvent, logged, Option.none_or]
  unfold readInputEvents
  dsimp only
  rw [registrations]
  apply insertionSort_eq _ _ (incidentEvents_before ordered)
  change ((registrationsOf (incidentEvents w m mod incidentId)) ++ _).Perm _
  rw [← registrationsOf, cancellations]
  simpa [registrationsOf] using List.filter_append_perm
    (fun event : ClaimEvent => decide (event.kind = .register))
    (incidentEvents w m mod incidentId)

end Reading

end Usd8Core.Settlement
