import Usd8Core.Kernel.Allocate
import Mathlib.Data.List.AList

/-!
# Allocation driven by the event stream

`allocate_with_events` replays the stream, indexes it again by claim, joins the
live registrations with the resolved claims and hands them to `allocate` in
registration order.
-/

set_option autoImplicit false

namespace Usd8Core.Kernel

open Usd8Core.Lib.ByteWords
open Usd8Core.Lib.CheckedCall

/-- A hash map under claim ids; every key is stored once. -/
abbrev ClaimMap (β : Type) := AList fun _ : Nat => β

/-- The collections `allocate_with_events` builds from the stream. -/
structure EventIndex where
  registrations : ClaimMap ClaimEvent
  registrationOrder : List Nat
  cancelled : List Nat

def EventIndex.initial : EventIndex := ⟨∅, [], []⟩

def indexEvent (index : EventIndex) (event : ClaimEvent) : Except KernelError EventIndex :=
  match event.kind with
  | .register => do
      revertIf (event.claimId ∈ index.registrations) (.duplicateRegistration event.claimId)
      pure { index with
        registrations := index.registrations.insert event.claimId event
        registrationOrder := index.registrationOrder ++ [event.claimId] }
  | .cancel => do
      revertIf (event.claimId ∉ index.registrations) (.unknownCancellation event.claimId)
      revertIf (event.claimId ∈ index.cancelled) (.duplicateCancellation event.claimId)
      pure { index with cancelled := event.claimId :: index.cancelled }

/-- One iteration over `input.claims`. -/
def resolveClaim (index : EventIndex) (resolved : ClaimMap ClaimInput) (claim : ClaimInput) :
    Except KernelError (ClaimMap ClaimInput) := do
  revertIf (claim.claimId ∈ resolved) (.duplicateResolvedClaim claim.claimId)
  revertIf (claim.claimId ∉ index.registrations ∨ claim.claimId ∈ index.cancelled)
    (.unexpectedResolvedClaim claim.claimId)
  pure (resolved.insert claim.claimId claim)

/-- The registration and the resolved claim differ in a registered field. -/
def mismatched (registration : ClaimEvent) (claim : ClaimInput) : Prop :=
  registration.user ≠ claim.user ∨ registration.amount ≠ claim.escrowAmount ∨
    registration.scoreToSpend ≠ claim.scoreToSpend ∨
    registration.boosterAmount ≠ claim.boosterAmount

instance (registration : ClaimEvent) (claim : ClaimInput) :
    Decidable (mismatched registration claim) :=
  inferInstanceAs (Decidable (_ ∨ _))

/-- The loop over `registration_order`. -/
def orderClaims (index : EventIndex) (resolved : ClaimMap ClaimInput) :
    List Nat → Except KernelError (List ClaimInput)
  | [] => .ok []
  | claimId :: rest =>
      if claimId ∈ index.cancelled then orderClaims index resolved rest
      else do
        let registration ← orRevert (index.registrations.lookup claimId)
          (.invalidPolicy ("registration order references missing claim " ++ toString claimId))
        let claim ← orRevert (resolved.lookup claimId) (.missingResolvedClaim claimId)
        revertIf (mismatched registration claim) (.resolvedClaimMismatch claimId)
        let ordered ← orderClaims index resolved rest
        pure (claim :: ordered)

/-- The same kernel input with other claims. -/
def withClaims (input : KernelInput) (claims : List ClaimInput) : KernelInput :=
  { input with claims := claims }

def allocateWithEvents (keccak256 : List Byte → Hash) (input : KernelInput)
    (events : List ClaimEvent) : Except KernelError KernelOutput := do
  let _ ← replayClaimSet keccak256 events
  let index ← events.foldlM indexEvent EventIndex.initial
  let resolved ← input.claims.foldlM (resolveClaim index) ∅
  let orderedClaims ← orderClaims index resolved index.registrationOrder
  let output ← allocate keccak256 (withClaims input orderedClaims)
  let claimSetHash ← claimSetHash keccak256 events
  pure { output with claimSetHash := claimSetHash }

/-! ## What the stream says -/

def registrationsOf (events : List ClaimEvent) : List ClaimEvent :=
  events.filter fun event => event.kind = .register

def cancelledIds (events : List ClaimEvent) : List Nat :=
  (events.filter fun event => event.kind = .cancel).map ClaimEvent.claimId

/-- The registrations that no event cancels, in the order of the stream. -/
def liveRegistrations (events : List ClaimEvent) : List ClaimEvent :=
  (registrationsOf events).filter fun event => event.claimId ∉ cancelledIds events

theorem registrationsOf_concat (events : List ClaimEvent) (event : ClaimEvent) :
    registrationsOf (events ++ [event]) =
      registrationsOf events ++ if event.kind = .register then [event] else [] := by
  by_cases registers : event.kind = .register <;>
    simp [registrationsOf, registers]

theorem cancelledIds_concat (events : List ClaimEvent) (event : ClaimEvent) :
    cancelledIds (events ++ [event]) =
      cancelledIds events ++ if event.kind = .cancel then [event.claimId] else [] := by
  by_cases cancels : event.kind = .cancel <;>
    simp [cancelledIds, cancels]

theorem mem_cancelledIds (events : List ClaimEvent) (claimId : Nat) :
    claimId ∈ cancelledIds events ↔
      ∃ event ∈ events, event.kind = .cancel ∧ event.claimId = claimId := by
  simp [cancelledIds, and_assoc]

/-! ## The two replays -/

/-- What the index holds after the events. -/
structure Indexed (events : List ClaimEvent) (index : EventIndex) : Prop where
  registered : ∀ (claimId : Nat) (event : ClaimEvent),
    index.registrations.lookup claimId = some event ↔
      event ∈ registrationsOf events ∧ event.claimId = claimId
  order : index.registrationOrder = (registrationsOf events).map ClaimEvent.claimId
  cancelled : ∀ claimId, claimId ∈ index.cancelled ↔ claimId ∈ cancelledIds events
  distinct : ((registrationsOf events).map ClaimEvent.claimId).Nodup

theorem Indexed.mem_registrations {events : List ClaimEvent} {index : EventIndex}
    (indexed : Indexed events index) (claimId : Nat) :
    claimId ∈ index.registrations ↔
      claimId ∈ (registrationsOf events).map ClaimEvent.claimId := by
  rw [← AList.lookup_isSome, Option.isSome_iff_exists, List.mem_map]
  exact exists_congr fun event => indexed.registered claimId event

theorem indexed_initial : Indexed [] EventIndex.initial where
  registered := by simp [EventIndex.initial, registrationsOf]
  order := rfl
  cancelled := by simp [EventIndex.initial, cancelledIds]
  distinct := List.nodup_nil

theorem indexEvent_indexed (events : List ClaimEvent) (index next : EventIndex)
    (event : ClaimEvent) (indexed : Indexed events index)
    (run : indexEvent index event = .ok next) : Indexed (events ++ [event]) next := by
  unfold indexEvent at run
  cases kind : event.kind with
  | register =>
      rw [kind] at run
      simp only [bind_ok_iff, revertIf_ok_iff, pure_ok_iff, exists_const] at run
      obtain ⟨fresh, rfl⟩ := run
      rw [indexed.mem_registrations] at fresh
      have registrations : registrationsOf (events ++ [event]) =
          registrationsOf events ++ [event] := by rw [registrationsOf_concat, if_pos kind]
      have cancelled : cancelledIds (events ++ [event]) = cancelledIds events := by
        rw [cancelledIds_concat, kind, if_neg (by decide), List.append_nil]
      refine ⟨?_, ?_, ?_, ?_⟩
      · intro claimId other
        rw [registrations, List.mem_append, List.mem_singleton]
        by_cases same : claimId = event.claimId
        · subst same
          rw [AList.lookup_insert]
          constructor
          · intro found
            cases found
            exact ⟨Or.inr rfl, rfl⟩
          · rintro ⟨earlier | rfl, sameId⟩
            · exact absurd (List.mem_map.mpr ⟨other, earlier, sameId⟩) fresh
            · rfl
        · rw [AList.lookup_insert_ne same, indexed.registered]
          constructor
          · rintro ⟨earlier, sameId⟩
            exact ⟨Or.inl earlier, sameId⟩
          · rintro ⟨earlier | rfl, sameId⟩
            · exact ⟨earlier, sameId⟩
            · exact absurd sameId.symm same
      · rw [registrations, List.map_append, indexed.order]
        rfl
      · rw [cancelled]
        exact indexed.cancelled
      · rw [registrations, List.map_append]
        exact indexed.distinct.append (List.nodup_singleton _)
          (by simpa [List.disjoint_singleton] using fresh)
  | cancel =>
      rw [kind] at run
      simp only [bind_ok_iff, revertIf_ok_iff, pure_ok_iff, exists_const] at run
      obtain ⟨-, -, rfl⟩ := run
      have registrations : registrationsOf (events ++ [event]) = registrationsOf events := by
        rw [registrationsOf_concat, kind, if_neg (by decide), List.append_nil]
      have cancelled : cancelledIds (events ++ [event]) =
          cancelledIds events ++ [event.claimId] := by rw [cancelledIds_concat, if_pos kind]
      refine ⟨?_, ?_, ?_, ?_⟩
      · rw [registrations]
        exact indexed.registered
      · rw [registrations]
        exact indexed.order
      · intro claimId
        rw [cancelled, List.mem_append, List.mem_singleton, ← indexed.cancelled, or_comm]
        exact List.mem_cons
      · rw [registrations]
        exact indexed.distinct

theorem indexEvents_indexed (events : List ClaimEvent) (index : EventIndex)
    (run : events.foldlM indexEvent EventIndex.initial = .ok index) :
    Indexed events index :=
  foldlM_tracks indexEvent Indexed
    (fun done state event next indexed ran => indexEvent_indexed done state next event indexed ran)
    events [] EventIndex.initial index indexed_initial run

/-- The replay's own view of the stream. -/
structure Replayed (events : List ClaimEvent) (state : ReplayState) : Prop where
  order : state.order = (registrationsOf events).map ClaimEvent.claimId
  cancelled : ∀ claimId, claimId ∈ state.cancelled ↔ claimId ∈ cancelledIds events

theorem replayEvent_replayed (events : List ClaimEvent) (state : ReplayState)
    (event : ClaimEvent) (next : ReplayState) (replayed : Replayed events state)
    (run : replayEvent state event = .ok next) : Replayed (events ++ [event]) next := by
  obtain ⟨order, cancelled⟩ := replayed
  unfold replayEvent at run
  constructor
  all_goals
    simp only [registrationsOf_concat, cancelledIds_concat]
    cases kind : event.kind with
    | register =>
        rw [kind] at run
        simp only [bind_ok_iff, revertIf_ok_iff, pure_ok_iff, exists_const] at run
        obtain ⟨_, _, _, rfl⟩ := run
        simp [order, cancelled]
    | cancel =>
        rw [kind] at run
        simp only [bind_ok_iff, revertIf_ok_iff, pure_ok_iff, exists_const] at run
        obtain ⟨_, _, _, _, rfl⟩ := run
        simp [order, cancelled, or_comm]

theorem replayEvents_replayed (events : List ClaimEvent) (state : ReplayState)
    (run : events.foldlM replayEvent ReplayState.initial = .ok state) :
    Replayed events state :=
  foldlM_tracks replayEvent Replayed replayEvent_replayed events [] ReplayState.initial state
    ⟨rfl, by simp [ReplayState.initial, cancelledIds]⟩ run

theorem replayClaimSet_live (keccak256 : List Byte → Hash) (events : List ClaimEvent)
    (replay : ClaimSetReplay) (run : replayClaimSet keccak256 events = .ok replay) :
    replay.liveClaimIds = (liveRegistrations events).map ClaimEvent.claimId := by
  unfold replayClaimSet at run
  simp only [bind_ok_iff, pure_ok_iff] at run
  obtain ⟨state, ran, hash, -, rfl⟩ := run
  obtain ⟨order, cancelled⟩ := replayEvents_replayed events state ran
  simp only [ReplayState.live, order, cancelled, liveRegistrations, List.filter_map]
  rfl

/-! ## The resolved claims -/

/-- What the map of resolved claims holds after the claims. -/
structure Resolved (index : EventIndex) (claims : List ClaimInput)
    (resolved : ClaimMap ClaimInput) : Prop where
  lookup : ∀ (claimId : Nat) (claim : ClaimInput),
    resolved.lookup claimId = some claim ↔ claim ∈ claims ∧ claim.claimId = claimId
  live : ∀ claim ∈ claims,
    claim.claimId ∈ index.registrations ∧ claim.claimId ∉ index.cancelled
  distinct : (claims.map ClaimInput.claimId).Nodup

theorem Resolved.mem_resolved {index : EventIndex} {claims : List ClaimInput}
    {resolved : ClaimMap ClaimInput} (join : Resolved index claims resolved) (claimId : Nat) :
    claimId ∈ resolved ↔ claimId ∈ claims.map ClaimInput.claimId := by
  rw [← AList.lookup_isSome, Option.isSome_iff_exists, List.mem_map]
  exact exists_congr fun claim => join.lookup claimId claim

theorem resolved_empty (index : EventIndex) : Resolved index [] ∅ where
  lookup := by simp
  live := by simp
  distinct := List.nodup_nil

theorem Resolved.concat {index : EventIndex} {claims : List ClaimInput}
    {resolved : ClaimMap ClaimInput} (join : Resolved index claims resolved)
    (claim : ClaimInput) (fresh : claim.claimId ∉ claims.map ClaimInput.claimId)
    (live : claim.claimId ∈ index.registrations ∧ claim.claimId ∉ index.cancelled) :
    Resolved index (claims ++ [claim]) (resolved.insert claim.claimId claim) where
  lookup := by
    intro claimId other
    rw [List.mem_append, List.mem_singleton]
    by_cases same : claimId = claim.claimId
    · subst same
      rw [AList.lookup_insert]
      constructor
      · intro found
        cases found
        exact ⟨Or.inr rfl, rfl⟩
      · rintro ⟨earlier | rfl, sameId⟩
        · exact absurd (List.mem_map.mpr ⟨other, earlier, sameId⟩) fresh
        · rfl
    · rw [AList.lookup_insert_ne same, join.lookup]
      constructor
      · rintro ⟨earlier, sameId⟩
        exact ⟨Or.inl earlier, sameId⟩
      · rintro ⟨earlier | rfl, sameId⟩
        · exact ⟨earlier, sameId⟩
        · exact absurd sameId.symm same
  live := by
    intro other member
    rcases List.mem_append.mp member with earlier | last
    · exact join.live other earlier
    · rw [List.mem_singleton.mp last]
      exact live
  distinct := by
    rw [List.map_append]
    exact join.distinct.append (List.nodup_singleton _)
      (by simpa [List.disjoint_singleton] using fresh)

theorem resolveClaim_resolved (index : EventIndex) (claims : List ClaimInput)
    (resolved : ClaimMap ClaimInput) (claim : ClaimInput) (next : ClaimMap ClaimInput)
    (join : Resolved index claims resolved)
    (run : resolveClaim index resolved claim = .ok next) :
    Resolved index (claims ++ [claim]) next := by
  unfold resolveClaim at run
  simp only [bind_ok_iff, revertIf_ok_iff, pure_ok_iff, exists_const, not_or, not_not] at run
  obtain ⟨fresh, live, rfl⟩ := run
  rw [join.mem_resolved] at fresh
  exact join.concat claim fresh live

theorem resolveClaims_resolved (index : EventIndex) (claims : List ClaimInput)
    (resolved : ClaimMap ClaimInput)
    (run : claims.foldlM (resolveClaim index) ∅ = .ok resolved) :
    Resolved index claims resolved :=
  foldlM_tracks (resolveClaim index) (Resolved index) (resolveClaim_resolved index) claims []
    ∅ resolved (resolved_empty index) run

/-- Distinct claims of live registrations are all taken in. -/
theorem resolveClaims_of_live (index : EventIndex) (claims : List ClaimInput) :
    (∀ claim ∈ claims,
      claim.claimId ∈ index.registrations ∧ claim.claimId ∉ index.cancelled) →
    (claims.map ClaimInput.claimId).Nodup →
    ∃ resolved, claims.foldlM (resolveClaim index) ∅ = .ok resolved := by
  induction claims using List.reverseRecOn with
  | nil =>
      intro _ _
      exact ⟨∅, rfl⟩
  | append_singleton claims claim ih =>
      intro live distinct
      rw [List.map_append, List.map_singleton, List.nodup_append] at distinct
      obtain ⟨before, ran⟩ := ih (fun other member => live other (by simp [member])) distinct.1
      have join := resolveClaims_resolved index claims before ran
      have fresh : claim.claimId ∉ before := by
        rw [join.mem_resolved]
        intro member
        exact distinct.2.2 _ member claim.claimId (by simp) rfl
      obtain ⟨registered, uncancelled⟩ := live claim (by simp)
      refine ⟨before.insert claim.claimId claim, ?_⟩
      rw [List.foldlM_append, ran]
      simp [List.foldlM_cons, resolveClaim, revertIf, fresh, registered, uncancelled, Bind.bind,
        Except.bind, pure, Except.pure]

/-! ## The join -/

/-- A resolved claim carries the fields of its registration. -/
structure Resolves (registration : ClaimEvent) (claim : ClaimInput) : Prop where
  claimId : claim.claimId = registration.claimId
  user : claim.user = registration.user
  amount : claim.escrowAmount = registration.amount
  scoreToSpend : claim.scoreToSpend = registration.scoreToSpend
  boosterAmount : claim.boosterAmount = registration.boosterAmount

theorem orderClaims_congr (index : EventIndex) (resolved resolved' : ClaimMap ClaimInput)
    (same : ∀ claimId, resolved.lookup claimId = resolved'.lookup claimId)
    (order : List Nat) : orderClaims index resolved order = orderClaims index resolved' order := by
  induction order with
  | nil => rfl
  | cons claimId rest ih =>
      unfold orderClaims
      rw [ih, same]

theorem orderClaims_ok (events : List ClaimEvent) (index : EventIndex)
    (claims : List ClaimInput) (resolved : ClaimMap ClaimInput) (indexed : Indexed events index)
    (join : Resolved index claims resolved) (registrations : List ClaimEvent)
    (listed : ∀ registration ∈ registrations, registration ∈ registrationsOf events)
    (ordered : List ClaimInput)
    (run : orderClaims index resolved (registrations.map ClaimEvent.claimId) = .ok ordered) :
    List.Forall₂ Resolves
        (registrations.filter fun event => event.claimId ∉ cancelledIds events) ordered ∧
      ∀ claim ∈ ordered, claim ∈ claims := by
  induction registrations generalizing ordered with
  | nil =>
      cases run
      exact ⟨List.Forall₂.nil, by simp⟩
  | cons registration rest ih =>
      have restListed : ∀ other ∈ rest, other ∈ registrationsOf events :=
        fun other member => listed other (by simp [member])
      rw [List.map_cons, orderClaims] at run
      by_cases cancelled : registration.claimId ∈ index.cancelled
      · rw [if_pos cancelled] at run
        rw [List.filter_cons_of_neg (by simpa using (indexed.cancelled _).mp cancelled)]
        exact ih restListed ordered run
      · rw [if_neg cancelled] at run
        simp only [bind_ok_iff, orRevert_ok_iff, revertIf_ok_iff, pure_ok_iff,
          exists_const] at run
        obtain ⟨found, foundAt, claim, claimAt, sameFields, others, restRun, rfl⟩ := run
        simp only [mismatched, not_or, not_not] at sameFields
        obtain ⟨user, amount, score, booster⟩ := sameFields
        have isRegistration : found = registration := by
          have own := (indexed.registered registration.claimId registration).mpr
            ⟨listed registration (by simp), rfl⟩
          exact Option.some.inj (foundAt.symm.trans own)
        subst isRegistration
        obtain ⟨member, sameId⟩ := (join.lookup _ _).mp claimAt
        rw [List.filter_cons_of_pos (by simpa [← indexed.cancelled] using cancelled)]
        obtain ⟨restResolves, restMembers⟩ := ih restListed others restRun
        refine ⟨List.Forall₂.cons
          ⟨sameId, user.symm, amount.symm, score.symm, booster.symm⟩ restResolves, ?_⟩
        exact List.forall_mem_cons.mpr ⟨member, restMembers⟩

end Usd8Core.Kernel
