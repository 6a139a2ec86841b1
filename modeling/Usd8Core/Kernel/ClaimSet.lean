import Usd8Core.Kernel.KernelData
import Usd8Core.Lib.RollingHash
import Mathlib.Data.List.Sort

/-!
# Claim-set commitment and event replay

`claim_set_hash` folds the ordered register/cancel stream into one digest;
`replay_claim_set` rebuilds the live claims from the same stream and rejects a
stream no contract run can emit.
-/

set_option autoImplicit false

namespace Usd8Core.Kernel

open Usd8Core.Lib.ByteWords
open Usd8Core.Lib.CheckedCall
open Usd8Core.Lib.RollingHash

section Hashing

variable (keccak256 : List Byte → Hash)

/-- The bytes one event adds to the rolling commitment. -/
def encodeEvent (accumulator : Hash) (event : ClaimEvent) :
    Except KernelError (List Byte) := do
  let claimWord ← uint256Word event.claimId
  match event.kind with
  | .register => do
      let fields ← uint256Words [event.amount, event.scoreToSpend, event.boosterAmount]
      pure (accumulator.bytes ++ claimWord ++ abiWord event.user ++ fields)
  | .cancel => pure (accumulator.bytes ++ claimWord)

def claimSetHashFrom (accumulator : Hash) : List ClaimEvent → Except KernelError Hash
  | [] => .ok accumulator
  | event :: rest => do
      let encoded ← encodeEvent accumulator event
      claimSetHashFrom (keccak256 encoded) rest

def claimSetHash (events : List ClaimEvent) : Except KernelError String := do
  let hash ← claimSetHashFrom keccak256 Hash.zero events
  pure (hashHex hash)

/-! ## Replay -/

/-- The four locals of the replay loop; the two hash sets are duplicate-free lists. -/
structure ReplayState where
  registrations : List Nat
  order : List Nat
  cancelled : List Nat
  previous : Option (Nat × Nat)

def ReplayState.initial : ReplayState := ⟨[], [], [], none⟩

/-- `(event.block_number, event.log_index) <= previous`, as tuples compare. -/
def notAfter (event : ClaimEvent) (previous : Nat × Nat) : Prop :=
  event.blockNumber < previous.1 ∨
    (event.blockNumber = previous.1 ∧ event.logIndex ≤ previous.2)

instance (event : ClaimEvent) (previous : Nat × Nat) : Decidable (notAfter event previous) :=
  inferInstanceAs (Decidable (_ ∨ _))

def checkPosition (event : ClaimEvent) : Option (Nat × Nat) → Except KernelError Unit
  | none => .ok ()
  | some previous =>
      revertIf (notAfter event previous)
        (.eventOrder previous.1 previous.2 event.blockNumber event.logIndex)

def replayEvent (state : ReplayState) (event : ClaimEvent) :
    Except KernelError ReplayState := do
  checkPosition event state.previous
  let state := { state with previous := some (event.blockNumber, event.logIndex) }
  match event.kind with
  | .register => do
      revertIf (event.claimId ∈ state.registrations) (.duplicateRegistration event.claimId)
      pure { state with
        registrations := event.claimId :: state.registrations
        order := state.order ++ [event.claimId] }
  | .cancel => do
      revertIf (event.claimId ∉ state.registrations) (.unknownCancellation event.claimId)
      revertIf (event.claimId ∈ state.cancelled) (.duplicateCancellation event.claimId)
      pure { state with cancelled := event.claimId :: state.cancelled }

structure ClaimSetReplay where
  hash : String
  unresolvedClaims : Nat
  liveClaimIds : List Nat

def ReplayState.live (state : ReplayState) : List Nat :=
  state.order.filter fun claimId => claimId ∉ state.cancelled

def replayClaimSet (events : List ClaimEvent) : Except KernelError ClaimSetReplay := do
  let state ← events.foldlM replayEvent ReplayState.initial
  let hash ← claimSetHash keccak256 events
  pure {
    hash := hash
    unresolvedClaims := state.live.length
    liveClaimIds := state.live }

/-! ## Settlement inputs -/

/-- The first user that equals its predecessor in a sorted list. -/
def firstAdjacentDuplicate : List (Address × Nat) → Option Address
  | first :: second :: rest =>
      if first.1 = second.1 then some second.1
      else firstAdjacentDuplicate (second :: rest)
  | _ => none

def sortByUser (rows : List (Address × Nat)) : List (Address × Nat) :=
  rows.insertionSort fun first second => first.1.val ≤ second.1.val

def settlementInputHash (rows : List (Address × Nat)) : Except KernelError String := do
  let canonical := sortByUser rows
  match firstAdjacentDuplicate canonical with
  | some user => .error (.duplicateInputUser user)
  | none => do
      let arrayBytes := canonical.length * 32
      revertIf (usizeBound ≤ arrayBytes) .uint256Overflow
      let secondOffset := 96 + arrayBytes
      revertIf (usizeBound ≤ secondOffset) .uint256Overflow
      let scores ← uint256Words (canonical.map Prod.snd)
      pure (hashHex (keccak256
        (usizeWord 64 ++ usizeWord secondOffset ++ usizeWord canonical.length ++
          canonical.flatMap (fun row => abiWord row.1) ++
          usizeWord canonical.length ++ scores)))

end Hashing

/-! ## What a successful step of each function did -/

section StepLemmas

variable (keccak256 : List Byte → Hash)

/-- The words one event adds to the rolling commitment, the digest so far first. -/
def eventWords (accumulator : Hash) (event : ClaimEvent) : List Nat :=
  match event.kind with
  | .register =>
      [accumulator.val, event.claimId, event.user.val, event.amount, event.scoreToSpend,
        event.boosterAmount]
  | .cancel => [accumulator.val, event.claimId]

def eventText (accumulator : Hash) (event : ClaimEvent) : List Byte :=
  encodeWords (eventWords accumulator event)

/-- The fields an event commits fit their words. -/
def ClaimEvent.Fits (event : ClaimEvent) : Prop :=
  ∀ accumulator : Hash, ∀ word ∈ eventWords accumulator event, word < uintBound 256

theorem encodeEvent_ok_iff (accumulator : Hash) (event : ClaimEvent) (bytes : List Byte) :
    encodeEvent accumulator event = .ok bytes ↔
      event.Fits ∧ bytes = eventText accumulator event := by
  unfold encodeEvent ClaimEvent.Fits eventText eventWords
  cases event.kind with
  | register =>
      simp only [bind_ok_iff, uint256Word_ok_iff, uint256Words_ok_iff, pure_ok_iff,
        abiWord_eq_wordBytes, Hash.bytes, encodeWords_cons, List.append_assoc]
      constructor
      · rintro ⟨claimWord, ⟨idFits, rfl⟩, fields, ⟨fieldsFit, rfl⟩, rfl⟩
        refine ⟨?_, by simp⟩
        simp only [List.forall_mem_cons, List.not_mem_nil, false_implies, implies_true,
          and_true] at fieldsFit
        simpa [Hash.isLt, Address.val_lt_word] using ⟨idFits, fieldsFit⟩
      · rintro ⟨fits, rfl⟩
        have wordsFit := fits accumulator
        simp only [List.forall_mem_cons] at wordsFit
        exact ⟨_, ⟨wordsFit.2.1, rfl⟩, _, ⟨by simpa using wordsFit.2.2.2, rfl⟩,
          by simp⟩
  | cancel =>
      simp only [bind_ok_iff, uint256Word_ok_iff, pure_ok_iff, Hash.bytes, encodeWords_cons]
      constructor
      · rintro ⟨claimWord, ⟨idFits, rfl⟩, rfl⟩
        exact ⟨by simpa [Hash.isLt] using idFits, by simp⟩
      · rintro ⟨fits, rfl⟩
        have wordsFit := fits accumulator
        simp only [List.forall_mem_cons] at wordsFit
        exact ⟨_, ⟨wordsFit.2.1, rfl⟩, by simp⟩

/-- The loop is the rolling commitment of the events it could encode. -/
theorem claimSetHashFrom_ok_iff (accumulator : Hash) (events : List ClaimEvent) (hash : Hash) :
    claimSetHashFrom keccak256 accumulator events = .ok hash ↔
      (∀ event ∈ events, event.Fits) ∧
        hash = rollFrom keccak256 eventText accumulator events := by
  induction events generalizing accumulator with
  | nil => simp [claimSetHashFrom, eq_comm]
  | cons event rest ih =>
      simp only [claimSetHashFrom, bind_ok_iff, encodeEvent_ok_iff, ih, List.forall_mem_cons,
        rollFrom]
      constructor
      · rintro ⟨bytes, ⟨fits, rfl⟩, restFit, rfl⟩
        exact ⟨⟨fits, restFit⟩, rfl⟩
      · rintro ⟨⟨fits, restFit⟩, rfl⟩
        exact ⟨_, ⟨fits, rfl⟩, restFit, rfl⟩

theorem claimSetHash_ok_iff (events : List ClaimEvent) (text : String) :
    claimSetHash keccak256 events = .ok text ↔
      (∀ event ∈ events, event.Fits) ∧
        text = hashHex (rollFrom keccak256 eventText Hash.zero events) := by
  simp only [claimSetHash, bind_ok_iff, pure_ok_iff, claimSetHashFrom_ok_iff]
  constructor
  · rintro ⟨hash, ⟨fits, rfl⟩, rfl⟩
    exact ⟨fits, rfl⟩
  · rintro ⟨fits, rfl⟩
    exact ⟨_, ⟨fits, rfl⟩, rfl⟩

theorem checkPosition_ok_iff (event : ClaimEvent) (previous : Option (Nat × Nat))
    (result : Unit) :
    checkPosition event previous = .ok result ↔
      ∀ position, previous = some position → ¬ notAfter event position := by
  cases previous with
  | none => simp [checkPosition]
  | some position => simp [checkPosition, revertIf_ok_iff]

theorem firstAdjacentDuplicate_none : ∀ rows : List (Address × Nat),
    (rows.map Prod.fst).Nodup → firstAdjacentDuplicate rows = none := by
  intro rows
  induction rows with
  | nil => intro _; rfl
  | cons first rest ih =>
      intro distinct
      cases rest with
      | nil => rfl
      | cons second rest =>
          rw [List.map_cons, List.nodup_cons] at distinct
          have differ : first.1 ≠ second.1 := by
            intro same
            exact distinct.1 (by simp [same])
          rw [firstAdjacentDuplicate, if_neg differ]
          exact ih distinct.2

/-- Rows with pairwise distinct users are never refused as duplicates. -/
theorem settlementInputHash_avoids_duplicate (rows : List (Address × Nat))
    (distinct : (rows.map Prod.fst).Nodup) (user : Address) :
    settlementInputHash keccak256 rows ≠ .error (.duplicateInputUser user) := by
  have sortedDistinct : ((sortByUser rows).map Prod.fst).Nodup := by
    have permuted : (sortByUser rows).Perm rows := List.perm_insertionSort _ rows
    exact (permuted.map Prod.fst).nodup_iff.mpr distinct
  have clean := firstAdjacentDuplicate_none _ sortedDistinct
  have avoided : Avoids (fun error => error = KernelError.duplicateInputUser user)
      (settlementInputHash keccak256 rows) := by
    unfold settlementInputHash
    simp only [clean]
    apply avoids_revertIf_bind
    · intro _ impossible
      cases impossible
    intro _
    apply avoids_revertIf_bind
    · intro _ impossible
      cases impossible
    intro _
    apply avoids_bind
    · exact uint256Words_avoids _ _ (by intro impossible; cases impossible)
    · intro scores _
      exact avoids_pure _
  intro failed
  exact avoided _ failed rfl

end StepLemmas

end Usd8Core.Kernel
