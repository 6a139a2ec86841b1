import Usd8Core.Score.ScoreCore

/-!
# The split law of the score accumulator

Wherever its life is cut into advances, an account's projected numerator is the sum
over the rate segments of the rate times the scaled integral of the balance held.
The invariant behind it says which part of that sum is completed, which part is
active and that nothing else has been integrated.
-/

set_option autoImplicit false

namespace Usd8Core.Score

open Usd8Core.Lib.CheckedCall

/-! ## The sum over the segments -/

/-- The balance held over the blocks of a segment that lie before `toBlock`. -/
def segmentIntegral (held : Nat → Nat) (toBlock : Nat) (segment : RatePoint × Option Nat) : Nat :=
  ∑ block ∈ Finset.Ico segment.1.fromBlock (overlapTo segment.2 toBlock), held block

def segmentNumerator (held : Nat → Nat) (decimals toBlock : Nat)
    (segment : RatePoint × Option Nat) : Nat :=
  segment.1.rate * scaledIntegral (segmentIntegral held toBlock segment) decimals

def expectedNumerator (held : Nat → Nat) (decimals : Nat) (rates : List RatePoint)
    (toBlock : Nat) : Nat :=
  ((segments rates).map (segmentNumerator held decimals toBlock)).sum

def EndsAfter (block : Nat) (segment : RatePoint × Option Nat) : Prop :=
  ∀ next, segment.2 = some next → block < next

section Integrals

variable {held : Nat → Nat} {fromBlock toBlock balance decimals : Nat}
  {segment : RatePoint × Option Nat}

@[simp] theorem scaledIntegral_zero (decimals : Nat) : scaledIntegral 0 decimals = 0 := by
  simp [scaledIntegral]

theorem overlapTo_le (next : Option Nat) (toBlock : Nat) : overlapTo next toBlock ≤ toBlock := by
  unfold overlapTo
  split <;> omega

theorem segmentIntegral_before (early : toBlock ≤ segment.1.fromBlock) :
    segmentIntegral held toBlock segment = 0 := by
  have empty := overlapTo_le segment.2 toBlock
  unfold segmentIntegral
  rw [Finset.Ico_eq_empty_of_le (by omega), Finset.sum_empty]

/-- A segment that the blocks in between do not meet. -/
theorem segmentIntegral_skip (forward : fromBlock < toBlock)
    (apart : overlapTo segment.2 toBlock ≤ max fromBlock segment.1.fromBlock) :
    segmentIntegral held toBlock segment = segmentIntegral held fromBlock segment := by
  obtain ⟨point, next⟩ := segment
  by_cases early : toBlock ≤ point.fromBlock
  · have later : fromBlock ≤ point.fromBlock := by omega
    rw [segmentIntegral_before early, segmentIntegral_before later]
  · cases next with
    | none =>
        simp only [overlapTo] at apart
        omega
    | some next =>
        simp only [overlapTo] at apart
        by_cases empty : next ≤ point.fromBlock
        · simp [segmentIntegral, overlapTo, empty]
        · have sameTo : min next toBlock = next := by omega
          have sameFrom : min next fromBlock = next := by omega
          simp [segmentIntegral, overlapTo, sameTo, sameFrom]

theorem sum_held {first last : Nat} (inside : fromBlock ≤ first) (below : last ≤ toBlock)
    (constant : ∀ block, fromBlock ≤ block → block < toBlock → held block = balance) :
    ∑ block ∈ Finset.Ico first last, held block = balance * (last - first) := by
  have same : ∀ block ∈ Finset.Ico first last, held block = balance := by
    intro block member
    rw [Finset.mem_Ico] at member
    exact constant block (by omega) (by omega)
  rw [Finset.sum_const_nat same, Nat.card_Ico, Nat.mul_comm]

/-- A segment grows by the balance over the blocks it shares with those in between. -/
theorem segmentIntegral_extend
    (meets : max fromBlock segment.1.fromBlock < overlapTo segment.2 toBlock)
    (constant : ∀ block, fromBlock ≤ block → block < toBlock → held block = balance) :
    segmentIntegral held toBlock segment = segmentIntegral held fromBlock segment +
      balance * (overlapTo segment.2 toBlock - max fromBlock segment.1.fromBlock) := by
  have inside := overlapTo_le segment.2 toBlock
  by_cases opens : fromBlock ≤ segment.1.fromBlock
  · rw [segmentIntegral_before opens, Nat.zero_add, Nat.max_eq_right opens]
    exact sum_held opens inside constant
  · have opened : segment.1.fromBlock ≤ fromBlock := by omega
    have soFar : overlapTo segment.2 fromBlock = fromBlock := by
      cases next : segment.2 with
      | none => rfl
      | some next =>
          rw [next] at meets
          simp only [overlapTo] at meets ⊢
          omega
    rw [Nat.max_eq_left opened, ← sum_held (Nat.le_refl fromBlock) inside constant]
    unfold segmentIntegral
    rw [soFar, Finset.sum_Ico_consecutive _ opened (by omega)]

end Integrals

/-! ## The loop over the segments -/

/-- What the active segment adds when it is finalized. -/
def pendingNumerator (state : AccountScoreState) (rates : List RatePoint) (decimals : Nat) :
    ScoreCall Nat :=
  match state.activeSegmentFrom with
  | none => pure 0
  | some fromBlock => do
      let rate ← rateFor rates fromBlock
      pure (scaledIntegral state.activeIntegral decimals * rate)

/-- A segment is integrated up to `block` in the state if it is active and not at all if
it is not. -/
def IntegratedTo (held : Nat → Nat) (block : Nat) (state : AccountScoreState)
    (segment : RatePoint × Option Nat) : Prop :=
  segmentIntegral held block segment =
    if state.activeSegmentFrom = some segment.1.fromBlock then state.activeIntegral else 0

/-- Between the iterations: the segments in `done` count up to `toBlock`, those in `left`
up to `fromBlock`. -/
structure Advancing (held : Nat → Nat) (rates : List RatePoint) (decimals : Nat)
    (start : AccountScoreState) (toBlock : Nat) (done left : List (RatePoint × Option Nat))
    (state : AccountScoreState) : Prop where
  balance : state.balance = start.balance
  lastBlock : state.lastBlock = start.lastBlock
  total : ∃ pending, pendingNumerator state rates decimals = .ok pending ∧
    state.completedNumerator + pending =
      (done.map (segmentNumerator held decimals toBlock)).sum +
        (left.map (segmentNumerator held decimals start.lastBlock)).sum
  started : ∀ fromBlock, state.activeSegmentFrom = some fromBlock → fromBlock ≤ toBlock
  behind : ∀ segment ∈ done, EndsAfter toBlock segment → IntegratedTo held toBlock state segment
  ahead : ∀ segment ∈ left, EndsAfter start.lastBlock segment →
    IntegratedTo held start.lastBlock state segment

section Loop

variable {held : Nat → Nat} {rates : List RatePoint} {decimals toBlock : Nat}
  {start state : AccountScoreState} {done left : List (RatePoint × Option Nat)}
  {segment : RatePoint × Option Nat}

theorem finalizeActive_ok {pending : Nat}
    (pends : pendingNumerator state rates decimals = .ok pending) :
    ∃ next, finalizeActive state rates decimals = .ok next ∧
      next.balance = state.balance ∧ next.lastBlock = state.lastBlock ∧
      next.completedNumerator = state.completedNumerator + pending ∧
      next.activeSegmentFrom = none := by
  unfold pendingNumerator at pends
  unfold finalizeActive
  cases active : state.activeSegmentFrom with
  | none =>
      rw [active] at pends
      cases (pure_ok_iff _ _).mp pends
      exact ⟨state, rfl, rfl, rfl, rfl, active⟩
  | some fromBlock =>
      rw [active] at pends
      obtain ⟨rate, found, result⟩ := (bind_ok_iff _ _ _).mp pends
      cases (pure_ok_iff _ _).mp result
      refine ⟨{ state with
        completedNumerator :=
          state.completedNumerator + scaledIntegral state.activeIntegral decimals * rate
        activeSegmentFrom := none
        activeIntegral := 0 }, ?_, rfl, rfl, rfl, rfl⟩
      exact (bind_ok_iff _ _ _).mpr ⟨rate, found, rfl⟩

/-- The active segment is another one or none: it is finalized and this one opened. -/
theorem openSegment_ok {pending : Nat} (fromBlock : Nat)
    (pends : pendingNumerator state rates decimals = .ok pending) :
    ∃ opened, (if state.activeSegmentFrom ≠ some fromBlock then do
          let state ← finalizeActive state rates decimals
          pure { state with activeSegmentFrom := some fromBlock, activeIntegral := 0 }
        else pure state : ScoreCall AccountScoreState) = .ok opened ∧
      opened.balance = state.balance ∧ opened.lastBlock = state.lastBlock ∧
      opened.activeSegmentFrom = some fromBlock ∧
      opened.activeIntegral =
        (if state.activeSegmentFrom = some fromBlock then state.activeIntegral else 0) ∧
      opened.completedNumerator = state.completedNumerator +
        (if state.activeSegmentFrom = some fromBlock then 0 else pending) := by
  by_cases active : state.activeSegmentFrom = some fromBlock
  · refine ⟨state, ?_, rfl, rfl, active, by simp [active], by simp [active]⟩
    rw [if_neg (not_not.mpr active)]
    rfl
  · obtain ⟨next, ran, balance, lastBlock, completed, -⟩ := finalizeActive_ok pends
    refine ⟨{ next with activeSegmentFrom := some fromBlock, activeIntegral := 0 }, ?_, balance,
      lastBlock, rfl, by simp [active], by simp [active, completed]⟩
    rw [if_pos active]
    exact (bind_ok_iff _ _ _).mpr ⟨next, ran, rfl⟩

/-- Opening a segment moves what was active before to the completed part. -/
theorem openSegment_total {pending : Nat} {opened : AccountScoreState}
    (member : segment ∈ segments rates) (ascending : Ascending rates)
    (pends : pendingNumerator state rates decimals = .ok pending)
    (integrated : IntegratedTo held start.lastBlock state segment)
    (completed : opened.completedNumerator = state.completedNumerator +
      (if state.activeSegmentFrom = some segment.1.fromBlock then 0 else pending)) :
    opened.completedNumerator + segmentNumerator held decimals start.lastBlock segment =
      state.completedNumerator + pending := by
  unfold segmentNumerator
  rw [completed, integrated]
  by_cases active : state.activeSegmentFrom = some segment.1.fromBlock
  · unfold pendingNumerator at pends
    rw [active] at pends
    obtain ⟨rate, found, result⟩ := (bind_ok_iff _ _ _).mp pends
    cases (rateFor_segment ascending member).symm.trans found
    cases (pure_ok_iff _ _).mp result
    rw [if_pos active, if_pos active, Nat.add_zero, Nat.mul_comm segment.1.rate]
  · rw [if_neg active, if_neg active, scaledIntegral_zero, Nat.mul_zero, Nat.add_zero]

theorem advanceSegment_apart
    (apart : overlapTo segment.2 toBlock ≤ max start.lastBlock segment.1.fromBlock)
    (forward : start.lastBlock < toBlock)
    (advancing : Advancing held rates decimals start toBlock done (segment :: left) state) :
    Advancing held rates decimals start toBlock (done ++ [segment]) left state := by
  obtain ⟨balanceEq, lastEq, ⟨pending, pends, total⟩, started, behind, ahead⟩ := advancing
  have same : segmentIntegral held toBlock segment =
      segmentIntegral held start.lastBlock segment := segmentIntegral_skip forward apart
  refine ⟨balanceEq, lastEq, ⟨pending, pends, ?_⟩, started, ?_,
    fun other member => ahead other (List.mem_cons_of_mem segment member)⟩
  · rw [List.map_cons, List.sum_cons] at total
    rw [List.map_append, List.sum_append, total, List.map_singleton, List.sum_singleton,
      segmentNumerator, segmentNumerator, same]
    omega
  · intro other inDone ends
    rcases List.mem_append.mp inDone with before | last
    · exact behind other before ends
    · rw [List.mem_singleton.mp last] at ends ⊢
      unfold IntegratedTo
      rw [same]
      exact ahead segment List.mem_cons_self fun next isNext => forward.trans (ends next isNext)

/-- The segments on both sides of one that the blocks meet: those before it have ended,
those after it have not begun. -/
theorem segments_beside (follows : (done ++ segment :: left).Pairwise Follows)
    (meets : max start.lastBlock segment.1.fromBlock < overlapTo segment.2 toBlock) :
    (∀ other ∈ done, ¬ EndsAfter toBlock other) ∧
      ∀ other ∈ left, segmentIntegral held start.lastBlock other = 0 ∧
        other.1.fromBlock ≠ segment.1.fromBlock := by
  rw [List.pairwise_append, List.pairwise_cons] at follows
  obtain ⟨-, ⟨later, -⟩, earlier⟩ := follows
  have inside := overlapTo_le segment.2 toBlock
  constructor
  · intro other member ends
    obtain ⟨next, isNext, -, before⟩ := earlier other member segment List.mem_cons_self
    have after := ends next isNext
    omega
  · intro other member
    obtain ⟨next, isNext, below, before⟩ := later other member
    rw [isNext] at meets
    simp only [overlapTo] at meets
    exact ⟨segmentIntegral_before (by omega), by omega⟩

/-- One iteration moves its segment on to `toBlock`. -/
theorem advanceSegment_step (member : segment ∈ segments rates) (ascending : Ascending rates)
    (follows : (done ++ segment :: left).Pairwise Follows) (forward : start.lastBlock < toBlock)
    (constant : ∀ block, start.lastBlock ≤ block → block < toBlock → held block = start.balance)
    (advancing : Advancing held rates decimals start toBlock done (segment :: left) state) :
    ∃ next, advanceSegment rates decimals toBlock state segment = .ok next ∧
      Advancing held rates decimals start toBlock (done ++ [segment]) left next := by
  unfold advanceSegment
  dsimp only
  rw [advancing.lastBlock]
  by_cases apart : overlapTo segment.2 toBlock ≤ max start.lastBlock segment.1.fromBlock
  · rw [if_pos apart]
    exact ⟨state, rfl, advanceSegment_apart apart forward advancing⟩
  have meets : max start.lastBlock segment.1.fromBlock < overlapTo segment.2 toBlock :=
    not_le.mp apart
  have beside : (∀ other ∈ done, ¬ EndsAfter toBlock other) ∧
      ∀ other ∈ left, segmentIntegral held start.lastBlock other = 0 ∧
        other.1.fromBlock ≠ segment.1.fromBlock := segments_beside follows meets
  obtain ⟨earlierEnded, laterIdle⟩ := beside
  obtain ⟨balanceEq, lastEq, ⟨pending, pends, total⟩, started, behind, ahead⟩ := advancing
  have integrated : IntegratedTo held start.lastBlock state segment := by
    apply ahead segment List.mem_cons_self
    intro next isNext
    rw [isNext] at meets
    simp only [overlapTo] at meets
    omega
  obtain ⟨opened, openRun, openBalance, openLast, openActive, openIntegral, openCompleted⟩ :=
    openSegment_ok segment.1.fromBlock pends
  have kept := openSegment_total member ascending pends integrated openCompleted
  -- the state with the new blocks integrated into the active segment
  let grown : AccountScoreState := { opened with
    activeIntegral := opened.activeIntegral + opened.balance *
      (overlapTo segment.2 toBlock - max start.lastBlock segment.1.fromBlock) }
  have grownIntegral : grown.activeIntegral = segmentIntegral held toBlock segment := by
    rw [segmentIntegral_extend meets constant, integrated, ← openIntegral, ← balanceEq,
      ← openBalance]
  have grownPending : pendingNumerator grown rates decimals =
      .ok (segmentNumerator held decimals toBlock segment) := by
    have active : grown.activeSegmentFrom = some segment.1.fromBlock := openActive
    unfold pendingNumerator segmentNumerator
    rw [active, ← grownIntegral, Nat.mul_comm]
    exact (bind_ok_iff _ _ _).mpr ⟨_, rateFor_segment ascending member, rfl⟩
  have grownTotal : grown.completedNumerator + segmentNumerator held decimals toBlock segment =
      ((done ++ [segment]).map (segmentNumerator held decimals toBlock)).sum +
        (left.map (segmentNumerator held decimals start.lastBlock)).sum := by
    have completed : grown.completedNumerator = opened.completedNumerator := rfl
    rw [List.map_cons, List.sum_cons] at total
    rw [List.map_append, List.sum_append, List.map_singleton, List.sum_singleton, completed]
    omega
  have grownBalance : grown.balance = start.balance := openBalance.trans balanceEq
  have grownLast : grown.lastBlock = start.lastBlock := openLast.trans lastEq
  have endsInside : segment.1.fromBlock ≤ toBlock := by
    have inside := overlapTo_le segment.2 toBlock
    omega
  rw [if_neg apart]
  by_cases ended : (segment.2.any fun next =>
      overlapTo (some next) toBlock == next && decide (next ≤ toBlock)) = true
  · obtain ⟨next, closeRun, nextBalance, nextLast, nextCompleted, inactive⟩ :=
      finalizeActive_ok grownPending
    refine ⟨next, (bind_ok_iff _ _ _).mpr ⟨opened, openRun, (if_pos ended).trans closeRun⟩,
      nextBalance.trans grownBalance, nextLast.trans grownLast, ⟨0, ?_, ?_⟩, ?_, ?_, ?_⟩
    · unfold pendingNumerator
      rw [inactive]
      rfl
    · rw [Nat.add_zero, nextCompleted, grownTotal]
    · intro fromBlock active
      rw [inactive] at active
      cases active
    · intro other inDone endsAfter
      rcases List.mem_append.mp inDone with before | last
      · exact absurd endsAfter (earlierEnded other before)
      · rw [List.mem_singleton.mp last] at endsAfter
        obtain ⟨reachedAt, isNext, reached⟩ := (Option.any_eq_true _ _).mp ended
        simp only [Bool.and_eq_true, decide_eq_true_eq] at reached
        exact absurd (endsAfter reachedAt isNext) (Nat.not_lt.mpr reached.2)
    · intro other inLeft _
      unfold IntegratedTo
      rw [(laterIdle other inLeft).1, inactive]
      rfl
  · refine ⟨grown, (bind_ok_iff _ _ _).mpr ⟨opened, openRun, if_neg ended⟩, grownBalance,
      grownLast, ⟨_, grownPending, grownTotal⟩, ?_, ?_, ?_⟩
    · intro fromBlock active
      cases openActive.symm.trans active
      exact endsInside
    · intro other inDone endsAfter
      rcases List.mem_append.mp inDone with before | last
      · exact absurd endsAfter (earlierEnded other before)
      · rw [List.mem_singleton.mp last]
        exact grownIntegral.symm.trans (if_pos openActive).symm
    · intro other inLeft _
      obtain ⟨idle, differ⟩ := laterIdle other inLeft
      refine idle.trans (if_neg ?_).symm
      intro active
      exact differ (Option.some.inj (active.symm.trans openActive))

/-- The whole loop. -/
theorem advanceSegments_run (ascending : Ascending rates) (forward : start.lastBlock < toBlock)
    (constant : ∀ block, start.lastBlock ≤ block → block < toBlock → held block = start.balance)
    (whole : segments rates = done ++ left)
    (advancing : Advancing held rates decimals start toBlock done left state) :
    ∃ final, left.foldlM (advanceSegment rates decimals toBlock) state = .ok final ∧
      Advancing held rates decimals start toBlock (segments rates) [] final := by
  induction left generalizing done state with
  | nil =>
      rw [List.append_nil] at whole
      rw [whole]
      exact ⟨state, rfl, advancing⟩
  | cons segment left ih =>
      have member : segment ∈ segments rates := by simp [whole]
      have follows := segments_follow ascending
      rw [whole] at follows
      obtain ⟨next, ran, moved⟩ :=
        advanceSegment_step member ascending follows forward constant advancing
      obtain ⟨final, rest, reached⟩ := ih (by rw [whole, List.append_assoc]; rfl) moved
      refine ⟨final, ?_, reached⟩
      rw [List.foldlM_cons]
      exact (bind_ok_iff _ _ _).mpr ⟨next, ran, rest⟩

end Loop

/-! ## Advancing an account -/

/-- The state has integrated what was held up to its last block: the sum is there, partly
completed and partly active, and the segments that have not ended are integrated so far. -/
structure Accumulated (held : Nat → Nat) (rates : List RatePoint) (decimals : Nat)
    (state : AccountScoreState) : Prop where
  total : ∃ pending, pendingNumerator state rates decimals = .ok pending ∧
    state.completedNumerator + pending =
      expectedNumerator held decimals rates state.lastBlock
  started : ∀ fromBlock, state.activeSegmentFrom = some fromBlock → fromBlock ≤ state.lastBlock
  integrated : ∀ segment ∈ segments rates, EndsAfter state.lastBlock segment →
    IntegratedTo held state.lastBlock state segment

section Advance

variable {held : Nat → Nat} {rates : List RatePoint} {decimals toBlock : Nat}
  {state : AccountScoreState}

theorem advanceAccount_accumulates (ascending : Ascending rates)
    (forward : state.lastBlock ≤ toBlock)
    (constant : ∀ block, state.lastBlock ≤ block → block < toBlock → held block = state.balance)
    (accumulated : Accumulated held rates decimals state) :
    ∃ next, advanceAccount state toBlock rates decimals = .ok next ∧
      next.balance = state.balance ∧ next.lastBlock = toBlock ∧
      Accumulated held rates decimals next := by
  have valid : validateRates rates = .ok () := if_neg (not_not.mpr ascending)
  have notBackward : (revertIf (toBlock < state.lastBlock)
      (.backward state.lastBlock toBlock) : ScoreCall Unit) = .ok () := if_neg (by omega)
  unfold advanceAccount
  by_cases same : toBlock = state.lastBlock
  · refine ⟨state, (bind_ok_iff _ _ _).mpr ⟨(), valid, (bind_ok_iff _ _ _).mpr
      ⟨(), notBackward, if_pos same⟩⟩, rfl, same.symm, accumulated⟩
  · have begins : Advancing held rates decimals state toBlock [] (segments rates) state := by
      refine ⟨rfl, rfl, ?_, fun fromBlock active =>
        (accumulated.started fromBlock active).trans forward, ?_, accumulated.integrated⟩
      · obtain ⟨pending, pends, total⟩ := accumulated.total
        exact ⟨pending, pends, by simpa [expectedNumerator] using total⟩
      · intro segment member
        cases member
    obtain ⟨final, ran, reached⟩ :=
      advanceSegments_run ascending (by omega) constant rfl begins
    refine ⟨{ final with lastBlock := toBlock }, ?_, reached.balance, rfl, ?_, reached.started,
      reached.behind⟩
    · refine (bind_ok_iff _ _ _).mpr ⟨(), valid, (bind_ok_iff _ _ _).mpr ⟨(), notBackward, ?_⟩⟩
      rw [if_neg same]
      exact (bind_ok_iff _ _ _).mpr ⟨final, ran, rfl⟩
    · obtain ⟨pending, pends, total⟩ := reached.total
      exact ⟨pending, pends, by simpa [expectedNumerator] using total⟩

theorem projectedNumerator_accumulates (ascending : Ascending rates)
    (forward : state.lastBlock ≤ toBlock)
    (constant : ∀ block, state.lastBlock ≤ block → block < toBlock → held block = state.balance)
    (accumulated : Accumulated held rates decimals state) :
    projectedNumerator state toBlock rates decimals =
      .ok (expectedNumerator held decimals rates toBlock) := by
  obtain ⟨next, ran, -, lastEq, reached⟩ :=
    advanceAccount_accumulates ascending forward constant accumulated
  obtain ⟨pending, pends, total⟩ := reached.total
  rw [lastEq] at total
  unfold projectedNumerator
  refine (bind_ok_iff _ _ _).mpr ⟨next, ran, ?_⟩
  unfold pendingNumerator at pends
  cases active : next.activeSegmentFrom with
  | none =>
      rw [active] at pends
      cases (pure_ok_iff _ _).mp pends
      rw [← total]
      rfl
  | some fromBlock =>
      rw [active] at pends
      obtain ⟨rate, found, result⟩ := (bind_ok_iff _ _ _).mp pends
      cases (pure_ok_iff _ _).mp result
      rw [← total]
      exact (bind_ok_iff _ _ _).mpr ⟨rate, found, rfl⟩

end Advance

end Usd8Core.Score
