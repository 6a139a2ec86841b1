import Usd8Core.Kernel.AllocateEvents
import Usd8Core.Settlement.MerkleCommitment
import Usd8Core.Settlement.RowBounds

/-!
# The event stream fixes the allocation

The resolved claims reach the kernel as an unordered list.  A completed call has
joined them one to one with the live registrations, and what it returns is a
function of the stream and of the set of the claims.
-/

set_option autoImplicit false

namespace Usd8Core.Settlement

open Usd8Core.Lib.ByteWords
open Usd8Core.Lib.CheckedCall
open Usd8Core.Kernel
open Usd8Core.Chain (SmallDeployment.platform SmallDeployment.alice SmallDeployment.bob)

section Canonical

variable (keccak256 : List Byte → Hash)

theorem allocate_row_claimIds (input : KernelInput) (output : KernelOutput)
    (run : allocate keccak256 input = .ok output) :
    output.rows.map SettledRow.claimId = input.claims.map ClaimInput.claimId := by
  rw [(allocate_ok keccak256 input output run).rows, allocatedRows_eq, List.map_map]
  apply List.map_congr_left
  intro claim _
  exact (finalRow_bounds input claim).claimId

/-- Only rows have proofs. -/
theorem allocate_proof_claimIds (input : KernelInput) (output : KernelOutput)
    (run : allocate keccak256 input = .ok output) (entry : Nat × List String)
    (member : entry ∈ output.proofs) : entry.1 ∈ output.rows.map SettledRow.claimId := by
  obtain ⟨-, rowsEq, -, commitment⟩ := allocate_ok keccak256 input output run
  rw [rowsEq]
  unfold commitRows at commitment
  split at commitment
  next =>
    have noProofs : output.proofs = [] := (congrArg Prod.snd (Except.ok.inj commitment)).symm
    rw [noProofs] at member
    cases member
  next =>
    obtain ⟨tree, built, result⟩ := (bind_ok_iff _ _ _).mp commitment
    have proofsEq : output.proofs = tree.allProofsHex :=
      (congrArg Prod.snd ((pure_ok_iff _ _).mp result)).symm
    obtain ⟨-, -, -, treeProofs⟩ := settlementTree_new_ok keccak256 _ _ tree built
    have keys : tree.allProofsHex.map Prod.fst =
        (treeLeaves keccak256 input.incidentId
          ((allocatedRows input).map SettledRow.merkleRow)).map Prod.snd := by
      rw [SettlementTree.allProofsHex, List.map_map, treeProofs, ← proofsFrom_keys]
      rfl
    have inKeys : entry.1 ∈ tree.allProofsHex.map Prod.fst :=
      List.mem_map_of_mem (proofsEq ▸ member)
    have permuted := (treeLeaves_perm keccak256 input.incidentId
      ((allocatedRows input).map SettledRow.merkleRow)).map Prod.snd
    rw [keys, permuted.mem_iff] at inKeys
    simpa [SettledRow.merkleRow, Function.comp_def] using inKeys

/-- The stages of a completed call. -/
structure EventAllocated (input : KernelInput) (events : List ClaimEvent)
    (output : KernelOutput) (replay : ClaimSetReplay) (index : EventIndex)
    (resolved : ClaimMap ClaimInput) (ordered : List ClaimInput) : Prop where
  replayed : replayClaimSet keccak256 events = .ok replay
  indexRun : events.foldlM indexEvent EventIndex.initial = .ok index
  resolveRun : input.claims.foldlM (resolveClaim index) ∅ = .ok resolved
  orderRun : orderClaims index resolved index.registrationOrder = .ok ordered
  hashed : claimSetHash keccak256 events = .ok output.claimSetHash
  allocated : ∃ kernelOutput,
    allocate keccak256 (withClaims input ordered) = .ok kernelOutput ∧
      output = { kernelOutput with claimSetHash := output.claimSetHash }

theorem allocateWithEvents_ok_iff (input : KernelInput) (events : List ClaimEvent)
    (output : KernelOutput) :
    allocateWithEvents keccak256 input events = .ok output ↔
      ∃ replay index resolved ordered,
        EventAllocated keccak256 input events output replay index resolved ordered := by
  simp only [allocateWithEvents, bind_ok_iff, pure_ok_iff]
  constructor
  · rintro ⟨replay, replayed, index, indexRun, resolved, resolveRun, ordered, orderRun,
      kernelOutput, allocated, hash, hashed, rfl⟩
    exact ⟨replay, index, resolved, ordered, replayed, indexRun, resolveRun, orderRun, hashed,
      kernelOutput, allocated, rfl⟩
  · rintro ⟨replay, index, resolved, ordered, replayed, indexRun, resolveRun, orderRun, hashed,
      kernelOutput, allocated, outputEq⟩
    exact ⟨replay, replayed, index, indexRun, resolved, resolveRun, ordered, orderRun,
      kernelOutput, allocated, _, hashed, outputEq.symm⟩

theorem liveRegistrations_nodup {events : List ClaimEvent} {index : EventIndex}
    (indexed : Indexed events index) :
    ((liveRegistrations events).map ClaimEvent.claimId).Nodup :=
  indexed.distinct.sublist (List.filter_sublist.map ClaimEvent.claimId)

/-- The ordered claims are the resolved ones, each once. -/
theorem ordered_perm {events : List ClaimEvent} {index : EventIndex}
    {claims ordered : List ClaimInput} {resolved : ClaimMap ClaimInput}
    (indexed : Indexed events index) (join : Resolved index claims resolved)
    (orderedIds : ordered.map ClaimInput.claimId =
      (liveRegistrations events).map ClaimEvent.claimId)
    (members : ∀ claim ∈ ordered, claim ∈ claims) : ordered.Perm claims := by
  have orderedNodup : (ordered.map ClaimInput.claimId).Nodup := by
    rw [orderedIds]
    exact liveRegistrations_nodup indexed
  apply (List.perm_ext_iff_of_nodup orderedNodup.of_map join.distinct.of_map).mpr
  intro claim
  refine ⟨members claim, ?_⟩
  intro member
  obtain ⟨registered, uncancelled⟩ := join.live claim member
  rw [indexed.mem_registrations] at registered
  rw [indexed.cancelled] at uncancelled
  have live : claim.claimId ∈ ordered.map ClaimInput.claimId := by
    rw [orderedIds, List.mem_map]
    obtain ⟨registration, listed, sameId⟩ := List.mem_map.mp registered
    refine ⟨registration, ?_, sameId⟩
    exact List.mem_filter.mpr ⟨listed, by simpa [sameId] using uncancelled⟩
  obtain ⟨other, otherMember, sameId⟩ := List.mem_map.mp live
  have same : other = claim :=
    List.inj_on_of_nodup_map join.distinct (members other otherMember) member sameId
  exact same ▸ otherMember

/-- The join does not see the order in which the claims were resolved. -/
theorem allocateWithEvents_perm (input : KernelInput) (events : List ClaimEvent)
    (output : KernelOutput) (run : allocateWithEvents keccak256 input events = .ok output)
    (claims : List ClaimInput) (permuted : claims.Perm input.claims) :
    allocateWithEvents keccak256 (withClaims input claims) events = .ok output := by
  obtain ⟨replay, index, resolved, ordered, stages⟩ :=
    (allocateWithEvents_ok_iff keccak256 input events output).mp run
  have join := resolveClaims_resolved index input.claims resolved stages.resolveRun
  obtain ⟨resolved', resolveRun'⟩ := resolveClaims_of_live index claims
    (fun claim member => join.live claim (permuted.mem_iff.mp member))
    ((permuted.map ClaimInput.claimId).nodup_iff.mpr join.distinct)
  have join' := resolveClaims_resolved index claims resolved' resolveRun'
  have sameLookup : ∀ claimId, resolved'.lookup claimId = resolved.lookup claimId := by
    intro claimId
    apply Option.ext
    intro claim
    rw [join'.lookup, join.lookup, permuted.mem_iff]
  apply (allocateWithEvents_ok_iff keccak256 (withClaims input claims) events output).mpr
  refine ⟨replay, index, resolved', ordered, stages.replayed, stages.indexRun, resolveRun', ?_,
    stages.hashed, stages.allocated⟩
  rw [orderClaims_congr index resolved' resolved sameLookup]
  exact stages.orderRun

end Canonical

/-- A completed event-driven allocation is the canonical one of its stream and claims. -/
theorem allocate_with_events_canonical (keccak256 : List Byte → Hash) (input : KernelInput)
    (events : List ClaimEvent) (output : KernelOutput)
    (run : allocateWithEvents keccak256 input events = .ok output) :
    (∃ replay, replayClaimSet keccak256 events = .ok replay ∧
      replay.liveClaimIds = (liveRegistrations events).map ClaimEvent.claimId ∧
      output.rows.map SettledRow.claimId = replay.liveClaimIds) ∧
    ((liveRegistrations events).map ClaimEvent.claimId).Nodup ∧
    (∃ resolved, resolved.Perm input.claims ∧
      List.Forall₂ Resolves (liveRegistrations events) resolved) ∧
    (∀ event ∈ events, event.kind = .cancel →
      (∀ row ∈ output.rows, row.claimId ≠ event.claimId) ∧
        ∀ entry ∈ output.proofs, entry.1 ≠ event.claimId) ∧
    claimSetHash keccak256 events = .ok output.claimSetHash ∧
    ∀ claims : List ClaimInput, claims.Perm input.claims →
      allocateWithEvents keccak256 (withClaims input claims) events = .ok output := by
  obtain ⟨replay, index, resolved, ordered, stages⟩ :=
    (allocateWithEvents_ok_iff keccak256 input events output).mp run
  obtain ⟨kernelOutput, allocated, outputEq⟩ := stages.allocated
  have indexed := indexEvents_indexed events index stages.indexRun
  have join := resolveClaims_resolved index input.claims resolved stages.resolveRun
  have orderRun := stages.orderRun
  rw [indexed.order] at orderRun
  obtain ⟨resolves, members⟩ := orderClaims_ok events index input.claims resolved indexed join
    (registrationsOf events) (fun _ listed => listed) ordered orderRun
  have orderedIds : ordered.map ClaimInput.claimId =
      (liveRegistrations events).map ClaimEvent.claimId := by
    rw [← List.forall₂_eq_eq_eq, List.forall₂_map_left_iff, List.forall₂_map_right_iff]
    exact resolves.flip.imp fun _ _ same => same.claimId
  have rows : output.rows = kernelOutput.rows := by rw [outputEq]
  have proofs : output.proofs = kernelOutput.proofs := by rw [outputEq]
  have rowIds : output.rows.map SettledRow.claimId =
      (liveRegistrations events).map ClaimEvent.claimId := by
    rw [rows, allocate_row_claimIds keccak256 _ kernelOutput allocated]
    exact orderedIds
  have liveIds := replayClaimSet_live keccak256 events replay stages.replayed
  have notCancelled : ∀ event ∈ events, event.kind = .cancel →
      event.claimId ∉ output.rows.map SettledRow.claimId := by
    intro event member cancels listed
    rw [rowIds] at listed
    obtain ⟨registration, live, sameId⟩ := List.mem_map.mp listed
    have uncancelled := (List.mem_filter.mp live).2
    have cancelled := (mem_cancelledIds events registration.claimId).mpr
      ⟨event, member, cancels, sameId.symm⟩
    simp [cancelled] at uncancelled
  refine ⟨⟨replay, stages.replayed, liveIds, rowIds.trans liveIds.symm⟩,
    liveRegistrations_nodup indexed, ⟨ordered, ordered_perm indexed join orderedIds members, resolves⟩,
    ?_, stages.hashed, allocateWithEvents_perm keccak256 input events output run⟩
  intro event member cancels
  have absent := notCancelled event member cancels
  constructor
  · intro row rowMember same
    exact absent (List.mem_map.mpr ⟨row, rowMember, same⟩)
  · intro entry entryMember same
    apply absent
    have listed := allocate_proof_claimIds keccak256 _ kernelOutput allocated entry
      (proofs ▸ entryMember)
    rw [rows, ← same]
    exact listed

/-- The stream of the small deployment, with a third claim filed and cancelled. -/
def smallEvents : List ClaimEvent :=
  [⟨.register, 1, SmallDeployment.alice, 400, 90, 2, 10, 0⟩,
    ⟨.register, 3, SmallDeployment.bob, 50, 5, 0, 10, 1⟩,
    ⟨.cancel, 3, SmallDeployment.bob, 0, 0, 0, 11, 0⟩,
    ⟨.register, 2, SmallDeployment.bob, 300, 70, 0, 12, 0⟩]

theorem smallEvents_canonical :
    ∃ output, allocateWithEvents SmallDeployment.platform.keccak256 smallInput smallEvents =
        .ok output ∧
      allocateWithEvents SmallDeployment.platform.keccak256
        (withClaims smallInput smallInput.claims.reverse) smallEvents = .ok output ∧
      ∀ row ∈ output.rows, row.claimId ≠ 3 := by
  have succeeds : (match allocateWithEvents SmallDeployment.platform.keccak256 smallInput
      smallEvents with
      | .ok _ => true
      | .error _ => false) = true := by decide +kernel
  split at succeeds
  next output run =>
    obtain ⟨-, -, -, cancelled, -, permuted⟩ :=
      allocate_with_events_canonical _ smallInput smallEvents output run
    exact ⟨output, run, permuted _ (List.reverse_perm _),
      (cancelled ⟨.cancel, 3, SmallDeployment.bob, 0, 0, 0, 11, 0⟩ (by decide) rfl).1⟩
  next => cases succeeds

end Usd8Core.Settlement
