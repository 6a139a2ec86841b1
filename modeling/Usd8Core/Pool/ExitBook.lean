import Usd8Core.Chain.ChainState

/-!
# The exit book

The part of a pool that tracks exits: the queue of epochs with its cursor, the
epochs, the requests that point to them and the withdrawal reserve.  The book is
in order when the queue ascends, every epoch holds exactly the shares of the
requests that point to it, and the reserve is what the settled epochs still owe.
Three operations change it.
-/

set_option autoImplicit false

namespace Usd8Core.Pool

open Usd8Core.Lib.ByteWords
open Usd8Core.Lib.FiniteLedger
open Usd8Core.Chain

structure ExitLedger where
  queue : List Nat
  index : Nat
  epochs : Nat → ExitEpoch
  requests : Address → ExitRequest
  reserve : Nat

def exitLedger (pool : SingleAssetCoverPool) : ExitLedger :=
  ⟨pool.exitEpochQueue, pool.nextExitEpochIndex, pool.exitEpochs, pool.exitRequests,
    pool.withdrawalReserve⟩

namespace ExitLedger

def settled (book : ExitLedger) : List Nat := book.queue.take book.index

def unsettled (book : ExitLedger) : List Nat := book.queue.drop book.index

/-- The shares of all outstanding requests for an epoch. -/
noncomputable def requested (book : ExitLedger) (exitEpoch : Nat) : Nat :=
  ∑ user : Address,
    if (book.requests user).exitEpoch = exitEpoch then (book.requests user).shares else 0

/-- The shares held in escrow for epochs that are not settled. -/
def escrowed (book : ExitLedger) : Nat :=
  (book.unsettled.map fun exitEpoch => (book.epochs exitEpoch).totalShares).sum

/-- Fix the epoch under the cursor at `assets`. -/
def settle (book : ExitLedger) (exitEpoch assets : Nat) : ExitLedger :=
  { book with
    index := book.index + 1
    epochs := Function.update book.epochs exitEpoch
      { book.epochs exitEpoch with
        totalAssets := assets
        remainingShares := (book.epochs exitEpoch).totalShares
        remainingAssets := assets }
    reserve := book.reserve + assets }

/-- Assign a user's shares to an epoch. -/
def request (book : ExitLedger) (user : Address) (shares exitEpoch : Nat) : ExitLedger :=
  { book with
    requests := Function.update book.requests user ⟨shares, exitEpoch⟩
    queue :=
      if (book.epochs exitEpoch).totalShares = 0 then book.queue ++ [exitEpoch] else book.queue
    epochs := Function.update book.epochs exitEpoch
      { book.epochs exitEpoch with
        totalShares := (book.epochs exitEpoch).totalShares + shares } }

/-- Pay a user's request out of its epoch. -/
def pay (book : ExitLedger) (user : Address) (assets : Nat) : ExitLedger :=
  let request := book.requests user
  let epoch := book.epochs request.exitEpoch
  { book with
    requests := Function.update book.requests user ⟨0, 0⟩
    epochs := Function.update book.epochs request.exitEpoch
      { epoch with
        remainingShares := epoch.remainingShares - request.shares
        remainingAssets := epoch.remainingAssets - assets }
    reserve := book.reserve - assets }

end ExitLedger

/-- The book is in order at time `now`. -/
structure ExitBook (now : Nat) (book : ExitLedger) : Prop where
  ascending : book.queue.Pairwise (· < ·)
  index_le : book.index ≤ book.queue.length
  settled_past : ∀ exitEpoch ∈ book.settled, exitEpoch ≤ now
  settled_shares : ∀ exitEpoch ∈ book.settled,
    (book.epochs exitEpoch).remainingShares = book.requested exitEpoch
  settled_drained : ∀ exitEpoch ∈ book.settled,
    (book.epochs exitEpoch).remainingShares = 0 → (book.epochs exitEpoch).remainingAssets = 0
  unsettled_shares : ∀ exitEpoch ∈ book.unsettled,
    (book.epochs exitEpoch).totalShares = book.requested exitEpoch
  unsettled_open : ∀ exitEpoch ∈ book.unsettled,
    (book.epochs exitEpoch).totalShares ≠ 0 ∧ (book.epochs exitEpoch).remainingShares = 0
  unused : ∀ exitEpoch, exitEpoch ∉ book.queue →
    (book.epochs exitEpoch).totalShares = 0 ∧ (book.epochs exitEpoch).remainingShares = 0 ∧
      book.requested exitEpoch = 0
  reserve : book.reserve =
    (book.settled.map fun exitEpoch => (book.epochs exitEpoch).remainingAssets).sum

namespace ExitBook

variable {now : Nat} {book : ExitLedger}

theorem later {later : Nat} (ordered : ExitBook now book) (passed : now ≤ later) :
    ExitBook later book :=
  { ordered with
    settled_past := fun exitEpoch member => (ordered.settled_past exitEpoch member).trans passed }

theorem nodup (ordered : ExitBook now book) : book.queue.Nodup :=
  ordered.ascending.imp (fun below => Nat.ne_of_lt below)

theorem mem_queue_iff (book : ExitLedger) (exitEpoch : Nat) :
    exitEpoch ∈ book.queue ↔ exitEpoch ∈ book.settled ∨ exitEpoch ∈ book.unsettled := by
  rw [← List.mem_append, ExitLedger.settled, ExitLedger.unsettled, List.take_append_drop]

/-- An epoch is on one side of the cursor only. -/
theorem not_both (ordered : ExitBook now book) (exitEpoch : Nat)
    (before : exitEpoch ∈ book.settled) (after : exitEpoch ∈ book.unsettled) : False := by
  have whole := ordered.nodup
  rw [← List.take_append_drop book.index book.queue, List.nodup_append] at whole
  exact whole.2.2 exitEpoch before exitEpoch after rfl

/-! ## Settling the epoch under the cursor -/

theorem settle_lists (exitEpoch assets : Nat)
    (atCursor : book.queue[book.index]? = some exitEpoch) :
    book.unsettled = exitEpoch :: (book.settle exitEpoch assets).unsettled ∧
      (book.settle exitEpoch assets).settled = book.settled ++ [exitEpoch] := by
  obtain ⟨inside, value⟩ := List.getElem?_eq_some_iff.mp atCursor
  refine ⟨?_, ?_⟩
  · rw [ExitLedger.unsettled, List.drop_eq_getElem_cons inside, value]
    rfl
  · change book.queue.take (book.index + 1) = _
    rw [List.take_add_one, atCursor]
    rfl

theorem settle (ordered : ExitBook now book) (exitEpoch assets : Nat)
    (atCursor : book.queue[book.index]? = some exitEpoch) (matured : exitEpoch ≤ now) :
    ExitBook now (book.settle exitEpoch assets) := by
  obtain ⟨headEq, settledEq⟩ := settle_lists exitEpoch assets atCursor
  have isUnsettled : exitEpoch ∈ book.unsettled := by rw [headEq]; simp
  have notSettled : ∀ other ∈ book.settled, other ≠ exitEpoch := by
    intro other member same
    exact ordered.not_both other member (same ▸ isUnsettled)
  have stillUnsettled : ∀ other ∈ (book.settle exitEpoch assets).unsettled,
      other ∈ book.unsettled ∧ other ≠ exitEpoch := by
    intro other member
    refine ⟨by rw [headEq]; simp [member], ?_⟩
    intro same
    have distinct := (List.drop_sublist book.index book.queue).nodup ordered.nodup
    rw [← ExitLedger.unsettled, headEq, List.nodup_cons] at distinct
    exact distinct.1 (same ▸ member)
  have otherEpoch : ∀ other, other ≠ exitEpoch →
      (book.settle exitEpoch assets).epochs other = book.epochs other := by
    intro other differ
    exact Function.update_of_ne differ _ _
  have thisEpoch : (book.settle exitEpoch assets).epochs exitEpoch =
      { book.epochs exitEpoch with
        totalAssets := assets
        remainingShares := (book.epochs exitEpoch).totalShares
        remainingAssets := assets } := Function.update_self ..
  refine ⟨ordered.ascending, ?_, ?_, ?_, ?_, ?_, ?_, ?_, ?_⟩
  · exact (List.getElem?_eq_some_iff.mp atCursor).1
  · intro other member
    rw [settledEq, List.mem_append, List.mem_singleton] at member
    rcases member with member | rfl
    · exact ordered.settled_past other member
    · exact matured
  · intro other member
    rw [settledEq, List.mem_append, List.mem_singleton] at member
    rcases member with member | rfl
    · rw [otherEpoch other (notSettled other member)]
      exact ordered.settled_shares other member
    · rw [thisEpoch]
      exact ordered.unsettled_shares other isUnsettled
  · intro other member
    rw [settledEq, List.mem_append, List.mem_singleton] at member
    rcases member with member | rfl
    · rw [otherEpoch other (notSettled other member)]
      exact ordered.settled_drained other member
    · rw [thisEpoch]
      intro empty
      exact absurd empty (ordered.unsettled_open other isUnsettled).1
  · intro other member
    obtain ⟨before, differ⟩ := stillUnsettled other member
    rw [otherEpoch other differ]
    exact ordered.unsettled_shares other before
  · intro other member
    obtain ⟨before, differ⟩ := stillUnsettled other member
    rw [otherEpoch other differ]
    exact ordered.unsettled_open other before
  · intro other notQueued
    have differ : other ≠ exitEpoch := by
      rintro rfl
      exact notQueued ((mem_queue_iff book other).mpr (Or.inr isUnsettled))
    rw [otherEpoch other differ]
    exact ordered.unused other notQueued
  · rw [settledEq, List.map_append, List.sum_append, List.map_singleton, List.sum_singleton,
      thisEpoch]
    have same : (book.settled.map fun other =>
        ((book.settle exitEpoch assets).epochs other).remainingAssets) =
        book.settled.map fun other => (book.epochs other).remainingAssets := by
      apply List.map_congr_left
      intro other member
      rw [otherEpoch other (notSettled other member)]
    rw [same, ← ordered.reserve]
    rfl

/-- Settling takes the epoch's shares out of escrow. -/
theorem settle_escrowed (ordered : ExitBook now book) (exitEpoch assets : Nat)
    (atCursor : book.queue[book.index]? = some exitEpoch) :
    book.escrowed =
      (book.epochs exitEpoch).totalShares + (book.settle exitEpoch assets).escrowed := by
  obtain ⟨headEq, -⟩ := settle_lists exitEpoch assets atCursor
  have distinct := (List.drop_sublist book.index book.queue).nodup ordered.nodup
  rw [← ExitLedger.unsettled, headEq, List.nodup_cons] at distinct
  have same : ((book.settle exitEpoch assets).unsettled.map fun other =>
      ((book.settle exitEpoch assets).epochs other).totalShares) =
      (book.settle exitEpoch assets).unsettled.map fun other =>
        (book.epochs other).totalShares := by
    apply List.map_congr_left
    intro other member
    have differ : other ≠ exitEpoch := by
      rintro rfl
      exact distinct.1 member
    have kept : (book.settle exitEpoch assets).epochs other = book.epochs other :=
      Function.update_of_ne differ _ _
    rw [kept]
  rw [ExitLedger.escrowed, headEq, List.map_cons, List.sum_cons, ExitLedger.escrowed, same]

/-! ## Assigning a request -/

/-- A user without a request adds exactly the new shares to the new epoch. -/
theorem requested_request (book : ExitLedger) (user : Address) (shares exitEpoch other : Nat)
    (noRequest : (book.requests user).shares = 0) :
    (book.request user shares exitEpoch).requested other =
      book.requested other + if other = exitEpoch then shares else 0 := by
  have changed := sum_differ_at
    (fun account => if (book.requests account).exitEpoch = other
      then (book.requests account).shares else 0)
    (fun account => if ((book.request user shares exitEpoch).requests account).exitEpoch = other
      then ((book.request user shares exitEpoch).requests account).shares else 0)
    user (Finset.mem_univ user) (by
      intro account _ differ
      have same : (book.request user shares exitEpoch).requests account =
          book.requests account := Function.update_of_ne differ _ _
      simp only [same])
  have written : (book.request user shares exitEpoch).requests user = ⟨shares, exitEpoch⟩ :=
    Function.update_self ..
  simp only [written, noRequest, ite_self, Nat.add_zero] at changed
  rw [ExitLedger.requested, changed, ExitLedger.requested]
  by_cases same : other = exitEpoch
  · rw [if_pos same, if_pos same.symm]
  · rw [if_neg same, if_neg (Ne.symm same)]

/-- The new request joins the last epochs: no entry of the queue is later, and
its epoch was never settled because settled epochs are not in the future. -/
theorem request (ordered : ExitBook now book) (user : Address) (shares exitEpoch : Nat)
    (noRequest : (book.requests user).shares = 0) (positive : shares ≠ 0)
    (future : now < exitEpoch) (last : ∀ entry ∈ book.queue, entry ≤ exitEpoch) :
    ExitBook now (book.request user shares exitEpoch) := by
  have requestedEq := requested_request book user shares exitEpoch
  have notSettled : ∀ other ∈ book.settled, other ≠ exitEpoch := by
    intro other member same
    have past := ordered.settled_past other member
    omega
  have otherEpoch : ∀ other, other ≠ exitEpoch →
      (book.request user shares exitEpoch).epochs other = book.epochs other := by
    intro other differ
    exact Function.update_of_ne differ _ _
  have thisEpoch : (book.request user shares exitEpoch).epochs exitEpoch =
      { book.epochs exitEpoch with
        totalShares := (book.epochs exitEpoch).totalShares + shares } :=
    Function.update_self ..
  have openIff : (book.epochs exitEpoch).totalShares = 0 ↔ exitEpoch ∉ book.queue := by
    constructor
    · intro empty queued
      rcases (mem_queue_iff book exitEpoch).mp queued with settled | unsettled
      · exact notSettled exitEpoch settled rfl
      · exact (ordered.unsettled_open exitEpoch unsettled).1 empty
    · intro notQueued
      exact (ordered.unused exitEpoch notQueued).1
  have settledEq : (book.request user shares exitEpoch).settled = book.settled := by
    have inside := ordered.index_le
    simp only [ExitLedger.settled, ExitLedger.request]
    split
    · rw [List.take_append_of_le_length inside]
    · rfl
  have unsettledMember : ∀ other ∈ (book.request user shares exitEpoch).unsettled,
      other ∈ book.unsettled ∨ (other = exitEpoch ∧ exitEpoch ∉ book.queue) := by
    intro other member
    have inside := ordered.index_le
    simp only [ExitLedger.unsettled, ExitLedger.request] at member
    split at member
    · rename_i empty
      rw [List.drop_append_of_le_length inside, List.mem_append, List.mem_singleton] at member
      rcases member with member | same
      · exact Or.inl member
      · exact Or.inr ⟨same, openIff.mp empty⟩
    · exact Or.inl member
  have remaining : ((book.request user shares exitEpoch).epochs exitEpoch).remainingShares =
      0 := by
    rw [thisEpoch]
    by_cases queued : exitEpoch ∈ book.queue
    · rcases (mem_queue_iff book exitEpoch).mp queued with settled | unsettled
      · exact absurd rfl (notSettled exitEpoch settled)
      · exact (ordered.unsettled_open exitEpoch unsettled).2
    · exact (ordered.unused exitEpoch queued).2.1
  have total : ((book.request user shares exitEpoch).epochs exitEpoch).totalShares =
      (book.request user shares exitEpoch).requested exitEpoch := by
    rw [thisEpoch, requestedEq exitEpoch noRequest, if_pos rfl]
    by_cases queued : exitEpoch ∈ book.queue
    · rcases (mem_queue_iff book exitEpoch).mp queued with settled | unsettled
      · exact absurd rfl (notSettled exitEpoch settled)
      · simp [ordered.unsettled_shares exitEpoch unsettled]
    · have unused := ordered.unused exitEpoch queued
      simp [unused.1, unused.2.2]
  refine ⟨?_, ?_, ?_, ?_, ?_, ?_, ?_, ?_, ?_⟩
  · simp only [ExitLedger.request]
    split
    · rename_i empty
      rw [List.pairwise_append]
      refine ⟨ordered.ascending, List.pairwise_singleton _ _, ?_⟩
      intro entry member newEntry isNew
      rw [List.mem_singleton] at isNew
      subst isNew
      have bound := last entry member
      have differ : entry ≠ newEntry := by
        rintro rfl
        exact openIff.mp empty member
      omega
    · exact ordered.ascending
  · have inside := ordered.index_le
    simp only [ExitLedger.request]
    split
    · rw [List.length_append]
      omega
    · exact inside
  · rw [settledEq]
    exact ordered.settled_past
  · rw [settledEq]
    intro other member
    have differ := notSettled other member
    rw [otherEpoch other differ, requestedEq other noRequest, if_neg differ]
    exact ordered.settled_shares other member
  · rw [settledEq]
    intro other member
    rw [otherEpoch other (notSettled other member)]
    exact ordered.settled_drained other member
  · intro other member
    by_cases same : other = exitEpoch
    · subst same
      exact total
    · rcases unsettledMember other member with before | ⟨isNew, -⟩
      · rw [otherEpoch other same, requestedEq other noRequest, if_neg same]
        exact ordered.unsettled_shares other before
      · exact absurd isNew same
  · intro other member
    by_cases same : other = exitEpoch
    · subst same
      refine ⟨?_, remaining⟩
      rw [thisEpoch]
      simp [positive]
    · rcases unsettledMember other member with before | ⟨isNew, -⟩
      · rw [otherEpoch other same]
        exact ordered.unsettled_open other before
      · exact absurd isNew same
  · intro other notQueued
    have notBefore : other ∉ book.queue := by
      intro queued
      apply notQueued
      simp only [ExitLedger.request]
      split
      · exact List.mem_append_left _ queued
      · exact queued
    have differ : other ≠ exitEpoch := by
      rintro rfl
      apply notQueued
      simp [ExitLedger.request, openIff.mpr notBefore]
    rw [otherEpoch other differ, requestedEq other noRequest, if_neg differ]
    exact ordered.unused other notBefore
  · rw [settledEq]
    have same : (book.settled.map fun other =>
        ((book.request user shares exitEpoch).epochs other).remainingAssets) =
        book.settled.map fun other => (book.epochs other).remainingAssets := by
      apply List.map_congr_left
      intro other member
      rw [otherEpoch other (notSettled other member)]
    rw [same]
    exact ordered.reserve

/-- A request puts its shares into escrow. -/
theorem request_escrowed (ordered : ExitBook now book) (user : Address)
    (shares exitEpoch : Nat) (future : now < exitEpoch) :
    (book.request user shares exitEpoch).escrowed = book.escrowed + shares := by
  have inside := ordered.index_le
  have thisEpoch : (book.request user shares exitEpoch).epochs exitEpoch =
      { book.epochs exitEpoch with
        totalShares := (book.epochs exitEpoch).totalShares + shares } :=
    Function.update_self ..
  have otherEpoch : ∀ other, other ≠ exitEpoch →
      (book.request user shares exitEpoch).epochs other = book.epochs other := by
    intro other differ
    exact Function.update_of_ne differ _ _
  have notSettled : exitEpoch ∉ book.settled := by
    intro settled
    have past := ordered.settled_past exitEpoch settled
    omega
  by_cases queued : exitEpoch ∈ book.queue
  · have unsettled : exitEpoch ∈ book.unsettled := by
      rcases (mem_queue_iff book exitEpoch).mp queued with settled | unsettled
      · exact absurd settled notSettled
      · exact unsettled
    have nonzero := (ordered.unsettled_open exitEpoch unsettled).1
    have listEq : (book.request user shares exitEpoch).unsettled = book.unsettled := by
      simp [ExitLedger.unsettled, ExitLedger.request, nonzero]
    have distinct := (List.drop_sublist book.index book.queue).nodup ordered.nodup
    have changed := list_sum_differ_at
      (fun other => (book.epochs other).totalShares)
      (fun other => ((book.request user shares exitEpoch).epochs other).totalShares)
      exitEpoch distinct unsettled (by
        intro other _ differ
        rw [otherEpoch other differ])
    simp only [thisEpoch] at changed
    rw [ExitLedger.escrowed, ExitLedger.escrowed, listEq]
    simp only [ExitLedger.unsettled]
    omega
  · have empty := (ordered.unused exitEpoch queued).1
    have listEq : (book.request user shares exitEpoch).unsettled =
        book.unsettled ++ [exitEpoch] := by
      simp [ExitLedger.unsettled, ExitLedger.request, empty,
        List.drop_append_of_le_length inside]
    have same : (book.unsettled.map fun other =>
        ((book.request user shares exitEpoch).epochs other).totalShares) =
        book.unsettled.map fun other => (book.epochs other).totalShares := by
      apply List.map_congr_left
      intro other member
      have differ : other ≠ exitEpoch := by
        rintro rfl
        exact queued ((mem_queue_iff book other).mpr (Or.inr member))
      rw [otherEpoch other differ]
    rw [ExitLedger.escrowed, listEq, List.map_append, List.sum_append, same, List.map_singleton,
      List.sum_singleton, thisEpoch, ExitLedger.escrowed]
    simp [empty]

/-! ## Paying a request -/

theorem requested_pay (book : ExitLedger) (user : Address) (assets other : Nat) :
    (book.pay user assets).requested other +
        (if other = (book.requests user).exitEpoch then (book.requests user).shares else 0) =
      book.requested other := by
  have changed := sum_differ_at
    (fun account => if (book.requests account).exitEpoch = other
      then (book.requests account).shares else 0)
    (fun account => if ((book.pay user assets).requests account).exitEpoch = other
      then ((book.pay user assets).requests account).shares else 0)
    user (Finset.mem_univ user) (by
      intro account _ differ
      have same : (book.pay user assets).requests account = book.requests account :=
        Function.update_of_ne differ _ _
      simp only [same])
  have written : (book.pay user assets).requests user = ⟨0, 0⟩ := Function.update_self ..
  simp only [written, ite_self, Nat.add_zero] at changed
  rw [ExitLedger.requested, ExitLedger.requested, ← changed]
  by_cases same : other = (book.requests user).exitEpoch
  · rw [if_pos same, if_pos same.symm]
  · rw [if_neg same, if_neg (Ne.symm same)]

/-- A request that is paid points to a settled epoch, the only kind with shares
left. -/
theorem settled_of_remaining (ordered : ExitBook now book) (exitEpoch : Nat)
    (left : (book.epochs exitEpoch).remainingShares ≠ 0) : exitEpoch ∈ book.settled := by
  by_cases queued : exitEpoch ∈ book.queue
  · rcases (mem_queue_iff book exitEpoch).mp queued with settled | unsettled
    · exact settled
    · exact absurd (ordered.unsettled_open exitEpoch unsettled).2 left
  · exact absurd (ordered.unused exitEpoch queued).2.1 left

theorem pay (ordered : ExitBook now book) (user : Address) (assets : Nat)
    (positive : (book.requests user).shares ≠ 0)
    (sharesLeft : (book.requests user).shares ≤
      (book.epochs (book.requests user).exitEpoch).remainingShares)
    (assetsLeft : assets ≤ (book.epochs (book.requests user).exitEpoch).remainingAssets)
    (lastTakesAll : (book.requests user).shares =
        (book.epochs (book.requests user).exitEpoch).remainingShares →
      assets = (book.epochs (book.requests user).exitEpoch).remainingAssets) :
    ExitBook now (book.pay user assets) := by
  have requestedEq := requested_pay book user assets
  have paidSettled : (book.requests user).exitEpoch ∈ book.settled :=
    ordered.settled_of_remaining _ (by omega)
  have thisEpoch : (book.pay user assets).epochs (book.requests user).exitEpoch =
      { book.epochs (book.requests user).exitEpoch with
        remainingShares := (book.epochs (book.requests user).exitEpoch).remainingShares -
          (book.requests user).shares
        remainingAssets := (book.epochs (book.requests user).exitEpoch).remainingAssets -
          assets } := Function.update_self ..
  have otherEpoch : ∀ other, other ≠ (book.requests user).exitEpoch →
      (book.pay user assets).epochs other = book.epochs other := by
    intro other differ
    exact Function.update_of_ne differ _ _
  have unsettledDiffer : ∀ other ∈ book.unsettled, other ≠ (book.requests user).exitEpoch := by
    intro other member same
    exact ordered.not_both other (same ▸ paidSettled) member
  refine ⟨ordered.ascending, ordered.index_le, ordered.settled_past, ?_, ?_, ?_, ?_, ?_, ?_⟩
  · intro other member
    have sharesEq := ordered.settled_shares other member
    have change := requestedEq other
    by_cases same : other = (book.requests user).exitEpoch
    · subst same
      rw [if_pos rfl] at change
      rw [thisEpoch]
      simp only
      omega
    · rw [if_neg same] at change
      rw [otherEpoch other same]
      omega
  · intro other member
    by_cases same : other = (book.requests user).exitEpoch
    · subst same
      rw [thisEpoch]
      simp only
      intro empty
      have all := lastTakesAll (by omega)
      omega
    · rw [otherEpoch other same]
      exact ordered.settled_drained other member
  · intro other member
    have differ := unsettledDiffer other member
    have change := requestedEq other
    rw [if_neg differ, Nat.add_zero] at change
    rw [otherEpoch other differ, change]
    exact ordered.unsettled_shares other member
  · intro other member
    rw [otherEpoch other (unsettledDiffer other member)]
    exact ordered.unsettled_open other member
  · intro other notQueued
    have differ : other ≠ (book.requests user).exitEpoch := by
      rintro rfl
      exact notQueued ((mem_queue_iff book _).mpr (Or.inl paidSettled))
    have change := requestedEq other
    rw [if_neg differ, Nat.add_zero] at change
    rw [otherEpoch other differ, change]
    exact ordered.unused other notQueued
  · have distinct := (List.take_sublist book.index book.queue).nodup ordered.nodup
    have changed := list_sum_differ_at
      (fun other => (book.epochs other).remainingAssets)
      (fun other => ((book.pay user assets).epochs other).remainingAssets)
      (book.requests user).exitEpoch distinct paidSettled (by
        intro other _ differ
        rw [otherEpoch other differ])
    simp only [thisEpoch] at changed
    have before := ordered.reserve
    change book.reserve - assets = _
    simp only [ExitLedger.settled] at before ⊢
    change _ = ((book.queue.take book.index).map fun other =>
      ((book.pay user assets).epochs other).remainingAssets).sum
    omega

/-- Paying a request does not touch the shares in escrow. -/
theorem pay_escrowed (ordered : ExitBook now book) (user : Address) (assets : Nat)
    (left : (book.epochs (book.requests user).exitEpoch).remainingShares ≠ 0) :
    (book.pay user assets).escrowed = book.escrowed := by
  have paidSettled := ordered.settled_of_remaining _ left
  have same : (book.unsettled.map fun other =>
      ((book.pay user assets).epochs other).totalShares) =
      book.unsettled.map fun other => (book.epochs other).totalShares := by
    apply List.map_congr_left
    intro other member
    have differ : other ≠ (book.requests user).exitEpoch := by
      rintro rfl
      exact ordered.not_both _ paidSettled member
    have kept : (book.pay user assets).epochs other = book.epochs other :=
      Function.update_of_ne differ _ _
    rw [kept]
  rw [ExitLedger.escrowed, ExitLedger.escrowed, ← same]
  rfl

/-- What one settled epoch still owes is part of the reserve. -/
theorem remaining_le_reserve (ordered : ExitBook now book) (exitEpoch : Nat)
    (settled : exitEpoch ∈ book.settled) :
    (book.epochs exitEpoch).remainingAssets ≤ book.reserve := by
  rw [ordered.reserve]
  exact List.single_le_sum (fun _ _ => Nat.zero_le _) _
    (List.mem_map.mpr ⟨exitEpoch, settled, rfl⟩)

end ExitBook

end Usd8Core.Pool
