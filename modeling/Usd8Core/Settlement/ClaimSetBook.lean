import Usd8Core.Settlement.InputEvents
import Usd8Core.Insurance.Solvency

/-!
# The book of an incident's claim set

The module keeps a rolling hash and a counter for each incident; the kernel rebuilds
the set of live claims from the log.  The book says what the two have in common, and
filing and cancelling keep it.
-/

set_option autoImplicit false

namespace Usd8Core.Settlement

open Usd8Core.Lib.ByteWords
open Usd8Core.Lib.CheckedCall
open Usd8Core.Lib.RollingHash
open Usd8Core.Lib.TraceRun
open Usd8Core.Chain
open Usd8Core.Kernel
open Usd8Core.Insurance

/-! ## Streams the replay accepts -/

/-- The claims registered by the events, in their order. -/
def registeredIds (events : List ClaimEvent) : List Nat :=
  (registrationsOf events).map ClaimEvent.claimId

/-- The replay ran through the events; its sets hold what the events say. -/
structure Replays (events : List ClaimEvent) (state : ReplayState) : Prop where
  run : events.foldlM replayEvent ReplayState.initial = .ok state
  registrations : ∀ claimId, claimId ∈ state.registrations ↔ claimId ∈ registeredIds events
  previous : ∀ position, state.previous = some position →
    ∃ event ∈ events, position = (event.blockNumber, event.logIndex)

section Replaying

variable {events : List ClaimEvent} {state : ReplayState} {event : ClaimEvent}

theorem replays_nil : Replays [] ReplayState.initial :=
  ⟨rfl, by simp [ReplayState.initial, registeredIds, registrationsOf],
    by simp [ReplayState.initial]⟩

/-- A later event keeps the order of the stream. -/
theorem Replays.inOrder (replays : Replays events state)
    (later : ∀ earlier ∈ events, Before earlier event) :
    checkPosition event state.previous = .ok () := by
  rw [checkPosition_ok_iff]
  intro position previous
  obtain ⟨earlier, member, rfl⟩ := replays.previous position previous
  exact later earlier member

theorem Replays.register (replays : Replays events state) (registers : event.kind = .register)
    (later : ∀ earlier ∈ events, Before earlier event)
    (fresh : event.claimId ∉ registeredIds events) :
    ∃ next, Replays (events ++ [event]) next := by
  have inOrder := replays.inOrder later
  have unseen : event.claimId ∉ state.registrations := fun seen =>
    fresh ((replays.registrations _).mp seen)
  refine ⟨⟨event.claimId :: state.registrations, state.order ++ [event.claimId],
    state.cancelled, some (event.blockNumber, event.logIndex)⟩, ?_, ?_, ?_⟩
  · rw [List.foldlM_append, replays.run]
    simp [List.foldlM_cons, replayEvent, inOrder, registers, revertIf, unseen, Bind.bind,
      Except.bind, pure, Except.pure]
  · intro claimId
    simp [registeredIds, registrationsOf_concat, registers, replays.registrations, or_comm]
  · intro position same
    exact ⟨event, by simp, (Option.some.inj same).symm⟩

theorem Replays.cancel (replays : Replays events state) (cancels : event.kind = .cancel)
    (later : ∀ earlier ∈ events, Before earlier event)
    (known : event.claimId ∈ registeredIds events)
    (live : event.claimId ∉ cancelledIds events) :
    ∃ next, Replays (events ++ [event]) next := by
  have inOrder := replays.inOrder later
  have seen : event.claimId ∈ state.registrations := (replays.registrations _).mpr known
  have uncancelled : event.claimId ∉ state.cancelled := fun cancelled =>
    live (((replayEvents_replayed events state replays.run).cancelled _).mp cancelled)
  refine ⟨⟨state.registrations, state.order, event.claimId :: state.cancelled,
    some (event.blockNumber, event.logIndex)⟩, ?_, ?_, ?_⟩
  · rw [List.foldlM_append, replays.run]
    simp [List.foldlM_cons, replayEvent, inOrder, cancels, revertIf, seen, uncancelled, Bind.bind,
      Except.bind, pure, Except.pure]
  · intro claimId
    simp [registeredIds, registrationsOf_concat, cancels, replays.registrations]
  · intro position same
    exact ⟨event, by simp, (Option.some.inj same).symm⟩

/-- An accepted stream with fields that fit is replayed to its digest and its live claims. -/
theorem Replays.replayed (keccak256 : List Byte → Hash) (replays : Replays events state)
    (fits : ∀ event ∈ events, event.Fits) :
    ∃ replay, replayClaimSet keccak256 events = .ok replay ∧
      replay.hash = hashHex (rollFrom keccak256 eventText Hash.zero events) ∧
      replay.liveClaimIds = (liveRegistrations events).map ClaimEvent.claimId ∧
      replay.unresolvedClaims = replay.liveClaimIds.length := by
  have hashed := (claimSetHash_ok_iff keccak256 events _).mpr ⟨fits, rfl⟩
  have ran : replayClaimSet keccak256 events = .ok
      ⟨hashHex (rollFrom keccak256 eventText Hash.zero events), state.live.length,
        state.live⟩ := by
    unfold replayClaimSet
    rw [replays.run, hashed]
    rfl
  exact ⟨_, ran, rfl, replayClaimSet_live keccak256 events _ ran, rfl⟩

end Replaying

/-! ## The book of an incident -/

/-- A filed claim on the incident. -/
def OfIncident (mod : DefiInsurance) (id claimId : Nat) : Prop :=
  (mod.claims claimId).user ≠ Address.zero ∧ (mod.claims claimId).incidentId = id

/-- What the events of an incident have in common with what the module has stored.
`clean` says that no claim of the incident was finalized so far. -/
structure ClaimSetBook (keccak256 : List Byte → Hash) (clean : Prop)
    (events : List ClaimEvent) (mod : DefiInsurance) (id : Nat) : Prop where
  replays : ∃ state, Replays events state
  fits : ∀ event ∈ events, event.Fits
  hash : (mod.incidents id).claimSetHash = rollFrom keccak256 eventText Hash.zero events
  sinceOpen : ∀ event ∈ events, (mod.incidents id).openBlock ≤ event.blockNumber
  registered : ∀ claimId, claimId ∈ registeredIds events ↔ OfIncident mod id claimId
  increasing : (registeredIds events).Pairwise (· < ·)
  users : ∀ event ∈ registrationsOf events, (mod.claims event.claimId).user = event.user
  known : ∀ claimId ∈ cancelledIds events, claimId ∈ registeredIds events
  resolved : ∀ claimId ∈ cancelledIds events, (mod.claims claimId).resolved = true
  current : ∀ event ∈ liveRegistrations events,
    mod.claimIdByIncidentAndUser id event.user = event.claimId
  untouched : clean → ∀ claimId ∈ registeredIds events, claimId ∉ cancelledIds events →
    (mod.claims claimId).resolved = false

/-- Filed claims stay filed, under the same user and on the same incident. -/
structure ClaimsGrown (mod after : DefiInsurance) : Prop where
  users : ∀ claimId, (mod.claims claimId).user ≠ Address.zero →
    (after.claims claimId).user = (mod.claims claimId).user
  incidents : ∀ claimId, (mod.claims claimId).user ≠ Address.zero →
    (after.claims claimId).incidentId = (mod.claims claimId).incidentId
  resolved : ∀ claimId, (mod.claims claimId).resolved = true →
    (mod.claims claimId).user ≠ Address.zero → (after.claims claimId).resolved = true

section Book

variable {keccak256 : List Byte → Hash} {clean clean' : Prop} {events : List ClaimEvent}
  {mod after : DefiInsurance} {id : Nat}

theorem mem_registeredIds {event : ClaimEvent} (member : event ∈ registrationsOf events) :
    event.claimId ∈ registeredIds events := List.mem_map_of_mem member

theorem mem_liveRegistrations {event : ClaimEvent} :
    event ∈ liveRegistrations events ↔
      event ∈ registrationsOf events ∧ event.claimId ∉ cancelledIds events := by
  simp [liveRegistrations]

theorem registeredIds_concat (event : ClaimEvent) :
    registeredIds (events ++ [event]) =
      registeredIds events ++ if event.kind = .register then [event.claimId] else [] := by
  unfold registeredIds
  rw [registrationsOf_concat]
  split <;> simp

/-- Without a registration nothing happened. -/
theorem ClaimSetBook.eq_nil (book : ClaimSetBook keccak256 clean events mod id)
    (none : ∀ claimId, ¬ OfIncident mod id claimId) : events = [] := by
  rw [List.eq_nil_iff_forall_not_mem]
  intro event member
  have absent : event.claimId ∉ registeredIds events := fun listed =>
    none _ ((book.registered _).mp listed)
  cases kind : event.kind with
  | register =>
      exact absent (mem_registeredIds (List.mem_filter.mpr ⟨member, by simp [kind]⟩))
  | cancel =>
      exact absent (book.known _ ((mem_cancelledIds events _).mpr ⟨event, member, kind, rfl⟩))

theorem ClaimSetBook.idFits (book : ClaimSetBook keccak256 clean events mod id) (claimId : Nat)
    (member : claimId ∈ registeredIds events) : claimId < uintBound 256 := by
  obtain ⟨event, listed, rfl⟩ := List.mem_map.mp member
  obtain ⟨inEvents, kind⟩ := List.mem_filter.mp listed
  have registers : event.kind = .register := by simpa using kind
  exact book.fits event inEvents Hash.zero event.claimId (by simp [eventWords, registers])

/-- A change of the module that adds no event of the incident. -/
theorem ClaimSetBook.quiet (book : ClaimSetBook keccak256 clean events mod id)
    (escrow : EscrowBook mod) (grown : ClaimsGrown mod after)
    (noNew : ∀ claimId, OfIncident after id claimId → OfIncident mod id claimId)
    (hash : (after.incidents id).claimSetHash = (mod.incidents id).claimSetHash)
    (sinceOpen : ∀ event ∈ events, (after.incidents id).openBlock ≤ event.blockNumber)
    (claimIds : ∀ user, mod.claimIdByIncidentAndUser id user ≠ 0 →
      after.claimIdByIncidentAndUser id user = mod.claimIdByIncidentAndUser id user)
    (narrowed : clean' → clean ∧ ∀ claimId, OfIncident mod id claimId →
      (after.claims claimId).resolved = (mod.claims claimId).resolved) :
    ClaimSetBook keccak256 clean' events after id where
  replays := book.replays
  fits := book.fits
  hash := hash.trans book.hash
  sinceOpen := sinceOpen
  registered := by
    intro claimId
    rw [book.registered]
    refine ⟨fun filed => ?_, noNew claimId⟩
    rw [OfIncident, grown.users claimId filed.1, grown.incidents claimId filed.1]
    exact filed
  increasing := book.increasing
  users := by
    intro event member
    have filed := (book.registered _).mp (mem_registeredIds member)
    rw [grown.users _ filed.1]
    exact book.users event member
  known := book.known
  resolved := by
    intro claimId member
    have filed := (book.registered _).mp (book.known claimId member)
    exact grown.resolved claimId (book.resolved claimId member) filed.1
  current := by
    intro event member
    have current := book.current event member
    have filed := (book.registered _).mp (mem_registeredIds (mem_liveRegistrations.mp member).1)
    have inside := escrow.inside filed.1
    rw [claimIds event.user (by omega)]
    exact current
  untouched := by
    intro isClean claimId member uncancelled
    obtain ⟨wasClean, same⟩ := narrowed isClean
    rw [same claimId ((book.registered _).mp member)]
    exact book.untouched wasClean claimId member uncancelled

/-- The event `fileClaim` logs. -/
def filedEvent (mod : DefiInsurance) (sender : Address)
    (escrow scoreToSpend boosterAmount blockNumber logIndex : Nat) : ClaimEvent :=
  ⟨.register, mod.nextClaimId, sender, escrow, scoreToSpend, boosterAmount, blockNumber, logIndex⟩

/-- The event `cancelClaim` logs. -/
def cancelledEvent (claimId : Nat) (sender : Address) (blockNumber logIndex : Nat) : ClaimEvent :=
  ⟨.cancel, claimId, sender, 0, 0, 0, blockNumber, logIndex⟩

theorem filedEvent_fits {sender : Address} {escrow scoreToSpend boosterAmount : Nat}
    (blockNumber logIndex : Nat) (idFits : mod.nextClaimId + 1 < uintBound 64)
    (escrowFits : escrow < uintBound 128) (scoreFits : scoreToSpend < uintBound 256)
    (boostersFit : boosterAmount < uintBound 128) :
    (filedEvent mod sender escrow scoreToSpend boosterAmount blockNumber logIndex).Fits := by
  have small : uintBound 64 < uintBound 256 := by decide
  have middle : uintBound 128 < uintBound 256 := by decide
  intro accumulator word member
  simp only [eventWords, filedEvent, List.mem_cons, List.not_mem_nil, or_false] at member
  rcases member with rfl | rfl | rfl | rfl | rfl | rfl
  · exact accumulator.isLt
  · omega
  · exact sender.val_lt_word
  · omega
  · exact scoreFits
  · omega

theorem ClaimSetBook.filed {platform : Platform} {sender token : Address}
    {escrow bondAmount scoreToSpend boosterAmount blockNumber logIndex : Nat}
    (book : ClaimSetBook platform.keccak256 clean events mod id) (escrowBook : EscrowBook mod)
    (narrowed : clean' → clean) (notZero : sender ≠ Address.zero)
    (noClaim : mod.claimIdByIncidentAndUser id sender = 0)
    (fits : (filedEvent mod sender escrow scoreToSpend boosterAmount blockNumber logIndex).Fits)
    (sinceOpen : (mod.incidents id).openBlock ≤ blockNumber)
    (later : ∀ earlier ∈ events, Before earlier
      (filedEvent mod sender escrow scoreToSpend boosterAmount blockNumber logIndex)) :
    ClaimSetBook platform.keccak256 clean'
      (events ++
        [filedEvent mod sender escrow scoreToSpend boosterAmount blockNumber logIndex])
      (World.registeredModule platform mod id sender token escrow bondAmount scoreToSpend
        boosterAmount) id := by
  generalize eventEq : filedEvent mod sender escrow scoreToSpend boosterAmount blockNumber
    logIndex = event at fits later ⊢
  generalize afterEq : World.registeredModule platform mod id sender token escrow bondAmount
    scoreToSpend boosterAmount = after
  have kind : event.kind = .register := by rw [← eventEq]; rfl
  have eventId : event.claimId = mod.nextClaimId := by rw [← eventEq]; rfl
  have eventUser : event.user = sender := by rw [← eventEq]; rfl
  have incident : after.incidents id = { mod.incidents id with
      unresolvedClaims := (mod.incidents id).unresolvedClaims + 1
      claimSetHash := claimJoinHash platform (mod.incidents id).claimSetHash mod.nextClaimId
        sender escrow scoreToSpend boosterAmount } := by
    rw [← afterEq]
    exact registeredModule_incident mod id sender token escrow bondAmount scoreToSpend
      boosterAmount
  have newClaim : after.claims mod.nextClaimId =
      ⟨sender, id, escrow, boosterAmount, bondAmount, false⟩ := by
    rw [← afterEq]
    exact Function.update_self ..
  have oldClaim : ∀ claimId, claimId ≠ mod.nextClaimId →
      after.claims claimId = mod.claims claimId := by
    intro claimId differ
    rw [← afterEq]
    exact Function.update_of_ne differ ..
  have older : ∀ claimId ∈ registeredIds events, claimId < mod.nextClaimId := by
    intro claimId member
    exact (escrowBook.inside ((book.registered claimId).mp member).1).2
  have oldRegistered : ∀ claimId ∈ registeredIds events,
      after.claims claimId = mod.claims claimId := fun claimId member =>
    oldClaim claimId (Nat.ne_of_lt (older claimId member))
  have fresh : event.claimId ∉ registeredIds events := by
    intro member
    have below := older _ member
    omega
  have ids : registeredIds (events ++ [event]) = registeredIds events ++ [mod.nextClaimId] := by
    rw [registeredIds_concat, if_pos kind, eventId]
  have cancelled : cancelledIds (events ++ [event]) = cancelledIds events := by
    rw [cancelledIds_concat, kind, if_neg (by decide), List.append_nil]
  have registrations : registrationsOf (events ++ [event]) = registrationsOf events ++ [event] := by
    rw [registrationsOf_concat, if_pos kind]
  obtain ⟨state, replays⟩ := book.replays
  refine ⟨replays.register kind later fresh, ?_, ?_, ?_, ?_, ?_, ?_, ?_, ?_, ?_, ?_⟩
  · intro other member
    rcases List.mem_append.mp member with old | new
    · exact book.fits other old
    · rw [List.mem_singleton.mp new]
      exact fits
  · rw [rollFrom_concat, ← book.hash, incident, ← eventEq]
    exact congrArg platform.keccak256 (abiEncode_words [_, _, _, _, _, _])
  · intro other member
    rw [incident]
    rcases List.mem_append.mp member with old | new
    · exact book.sinceOpen other old
    · rw [List.mem_singleton.mp new, ← eventEq]
      exact sinceOpen
  · intro claimId
    rw [ids, List.mem_append, List.mem_singleton, book.registered]
    by_cases same : claimId = mod.nextClaimId
    · subst same
      have now : OfIncident after id mod.nextClaimId := by
        rw [OfIncident, newClaim]
        exact ⟨notZero, rfl⟩
      exact ⟨fun _ => now, fun _ => Or.inr rfl⟩
    · rw [OfIncident, OfIncident, oldClaim claimId same]
      simp [same]
  · rw [ids, List.pairwise_append]
    refine ⟨book.increasing, List.pairwise_singleton _ _, ?_⟩
    intro claimId member new isNew
    rw [List.mem_singleton.mp isNew]
    exact older claimId member
  · intro other member
    rw [registrations] at member
    rcases List.mem_append.mp member with old | new
    · rw [oldRegistered _ (mem_registeredIds old)]
      exact book.users other old
    · rw [List.mem_singleton.mp new, eventId, newClaim, eventUser]
  · intro claimId member
    rw [cancelled] at member
    rw [ids, List.mem_append]
    exact Or.inl (book.known claimId member)
  · intro claimId member
    rw [cancelled] at member
    rw [oldRegistered claimId (book.known claimId member)]
    exact book.resolved claimId member
  · intro other member
    rw [mem_liveRegistrations, registrations, cancelled, List.mem_append] at member
    obtain ⟨old | new, uncancelled⟩ := member
    · have current := book.current other (mem_liveRegistrations.mpr ⟨old, uncancelled⟩)
      have otherUser : other.user ≠ sender := by
        rintro same
        rw [same, noClaim] at current
        have filed := (book.registered _).mp (mem_registeredIds old)
        have inside := escrowBook.inside filed.1
        omega
      rw [← current, ← afterEq]
      change Function.update mod.claimIdByIncidentAndUser id _ id other.user = _
      rw [Function.update_self, Function.update_of_ne otherUser]
    · rw [List.mem_singleton.mp new, eventId, eventUser, ← afterEq]
      change Function.update mod.claimIdByIncidentAndUser id _ id sender = _
      rw [Function.update_self, Function.update_self]
  · intro isClean claimId member uncancelled
    rw [ids, List.mem_append] at member
    rw [cancelled] at uncancelled
    rcases member with old | new
    · rw [oldRegistered claimId old]
      exact book.untouched (narrowed isClean) claimId old uncancelled
    · rw [List.mem_singleton.mp new, newClaim]

theorem cancelledEvent_fits {claimId : Nat} (sender : Address) (blockNumber logIndex : Nat)
    (idFits : claimId < uintBound 256) :
    (cancelledEvent claimId sender blockNumber logIndex).Fits := by
  intro accumulator word member
  simp only [eventWords, cancelledEvent, List.mem_cons, List.not_mem_nil, or_false] at member
  rcases member with rfl | rfl
  · exact accumulator.isLt
  · exact idFits

theorem ClaimSetBook.cancelled {platform : Platform} {sender token : Address} {claim : Claim}
    {claimId unresolved blockNumber logIndex : Nat}
    (book : ClaimSetBook platform.keccak256 clean events mod id) (escrowBook : EscrowBook mod)
    (narrowed : clean' → clean) (claimOf : mod.claimIdByIncidentAndUser id sender = claimId)
    (claimNotZero : claimId ≠ 0) (isUnresolved : (mod.claims claimId).resolved = false)
    (fits : (cancelledEvent claimId sender blockNumber logIndex).Fits)
    (sinceOpen : (mod.incidents id).openBlock ≤ blockNumber)
    (later : ∀ earlier ∈ events,
      Before earlier (cancelledEvent claimId sender blockNumber logIndex)) :
    ClaimSetBook platform.keccak256 clean'
      (events ++ [cancelledEvent claimId sender blockNumber logIndex])
      (refundedModule (World.cancelledModule platform mod id claimId sender unresolved) claim
        token) id := by
  generalize eventEq : cancelledEvent claimId sender blockNumber logIndex = event at fits later ⊢
  generalize afterEq : refundedModule (World.cancelledModule platform mod id claimId sender
    unresolved) claim token = after
  have kind : event.kind = .cancel := by rw [← eventEq]; rfl
  have eventId : event.claimId = claimId := by rw [← eventEq]; rfl
  have incident : after.incidents id = { mod.incidents id with
      unresolvedClaims := unresolved
      claimSetHash := claimCancelHash platform (mod.incidents id).claimSetHash claimId } := by
    rw [← afterEq]
    exact cancelledModule_incident platform mod id claimId sender unresolved
  have ownClaim : after.claims claimId = { mod.claims claimId with resolved := true } := by
    rw [← afterEq]
    exact Function.update_self ..
  have otherClaim : ∀ other, other ≠ claimId → after.claims other = mod.claims other := by
    intro other differ
    rw [← afterEq]
    exact Function.update_of_ne differ ..
  have sameUser : ∀ other, (after.claims other).user = (mod.claims other).user ∧
      (after.claims other).incidentId = (mod.claims other).incidentId := by
    intro other
    by_cases same : other = claimId
    · subst same
      rw [ownClaim]
      exact ⟨rfl, rfl⟩
    · rw [otherClaim other same]
      exact ⟨rfl, rfl⟩
  have ofIncident : OfIncident mod id claimId := by
    obtain ⟨user, notZero, onIncident⟩ :=
      escrowBook.claimOf id sender (by rw [claimOf]; exact claimNotZero)
    rw [claimOf] at user onIncident
    exact ⟨by rw [user]; exact notZero, onIncident⟩
  have known : claimId ∈ registeredIds events := (book.registered claimId).mpr ofIncident
  have live : claimId ∉ cancelledIds events := by
    intro member
    rw [book.resolved claimId member] at isUnresolved
    cases isUnresolved
  have registrations : registrationsOf (events ++ [event]) = registrationsOf events := by
    rw [registrationsOf_concat, kind, if_neg (by decide), List.append_nil]
  have ids : registeredIds (events ++ [event]) = registeredIds events := by
    rw [registeredIds, registrations, registeredIds]
  have cancelled : cancelledIds (events ++ [event]) = cancelledIds events ++ [claimId] := by
    rw [cancelledIds_concat, if_pos kind, eventId]
  obtain ⟨state, replays⟩ := book.replays
  refine ⟨replays.cancel kind later (eventId ▸ known) (eventId ▸ live), ?_, ?_, ?_, ?_, ?_, ?_, ?_,
    ?_, ?_, ?_⟩
  · intro other member
    rcases List.mem_append.mp member with old | new
    · exact book.fits other old
    · rw [List.mem_singleton.mp new]
      exact fits
  · rw [rollFrom_concat, ← book.hash, incident, ← eventEq]
    exact congrArg platform.keccak256 (abiEncode_words [_, _])
  · intro other member
    rw [incident]
    rcases List.mem_append.mp member with old | new
    · exact book.sinceOpen other old
    · rw [List.mem_singleton.mp new, ← eventEq]
      exact sinceOpen
  · intro other
    rw [ids, book.registered, OfIncident, OfIncident, (sameUser other).1, (sameUser other).2]
  · rw [ids]
    exact book.increasing
  · intro other member
    rw [registrations] at member
    rw [(sameUser _).1]
    exact book.users other member
  · intro other member
    rw [cancelled, List.mem_append, List.mem_singleton] at member
    rw [ids]
    rcases member with old | rfl
    · exact book.known other old
    · exact known
  · intro other member
    rw [cancelled, List.mem_append, List.mem_singleton] at member
    rcases member with old | rfl
    · rw [otherClaim other (fun same => live (same ▸ old))]
      exact book.resolved other old
    · rw [ownClaim]
  · intro other member
    rw [mem_liveRegistrations, registrations, cancelled, List.mem_append, List.mem_singleton,
      not_or] at member
    obtain ⟨old, uncancelled, notClaim⟩ := member
    have current := book.current other (mem_liveRegistrations.mpr ⟨old, uncancelled⟩)
    have otherUser : other.user ≠ sender := by
      rintro same
      rw [same, claimOf] at current
      exact notClaim current.symm
    rw [← current, ← afterEq]
    change Function.update mod.claimIdByIncidentAndUser id _ id other.user = _
    rw [Function.update_self, Function.update_of_ne otherUser]
  · intro isClean other member uncancelled
    rw [ids] at member
    rw [cancelled, List.mem_append, List.mem_singleton, not_or] at uncancelled
    rw [otherClaim other uncancelled.2]
    exact book.untouched (narrowed isClean) other member uncancelled.1

end Book

end Usd8Core.Settlement
