import Usd8Core.Score.ScoreRuns

/-!
# Resuming a score state

A state that was stored is advanced later, when the rate list may have grown.  What it has
accumulated so far does not depend on points that start after its last block, nor on what is
held from there on.
-/

set_option autoImplicit false

namespace Usd8Core.Score

open Usd8Core.Lib.CheckedCall

section Resumed

variable {held other : Nat → Nat} {known more rates : List RatePoint} {decimals toBlock : Nat}
  {state final : AccountScoreState}

/-! ## What was held before the last block -/

theorem segmentIntegral_congr (same : ∀ block < toBlock, held block = other block)
    (segment : RatePoint × Option Nat) :
    segmentIntegral held toBlock segment = segmentIntegral other toBlock segment := by
  have inside := overlapTo_le segment.2 toBlock
  apply Finset.sum_congr rfl
  intro block member
  rw [Finset.mem_Ico] at member
  exact same block (by omega)

theorem expectedNumerator_congr (same : ∀ block < toBlock, held block = other block) :
    expectedNumerator held decimals rates toBlock =
      expectedNumerator other decimals rates toBlock := by
  unfold expectedNumerator
  congr 1
  apply List.map_congr_left
  intro segment _
  rw [segmentNumerator, segmentNumerator, segmentIntegral_congr same]

/-- Only what is held from the first paying block on counts. -/
theorem expectedNumerator_from {start : Nat} (pays : ∀ segment ∈ segments rates,
      segment.1.rate ≠ 0 → segment.1.fromBlock < overlapTo segment.2 toBlock →
        start ≤ segment.1.fromBlock)
    (same : ∀ block, start ≤ block → block < toBlock → held block = other block) :
    expectedNumerator held decimals rates toBlock =
      expectedNumerator other decimals rates toBlock := by
  unfold expectedNumerator
  congr 1
  apply List.map_congr_left
  intro segment member
  by_cases idle : segment.1.rate = 0
  · simp [segmentNumerator, idle]
  by_cases empty : overlapTo segment.2 toBlock ≤ segment.1.fromBlock
  · simp [segmentNumerator, segmentIntegral, Finset.Ico_eq_empty_of_le empty]
  have begins := pays segment member idle (Nat.not_le.mp empty)
  have inside := overlapTo_le segment.2 toBlock
  have integral : segmentIntegral held toBlock segment = segmentIntegral other toBlock segment := by
    apply Finset.sum_congr rfl
    intro block between
    rw [Finset.mem_Ico] at between
    exact same block (by omega) (by omega)
  rw [segmentNumerator, segmentNumerator, integral]

theorem Accumulated.congr (accumulated : Accumulated held rates decimals state)
    (same : ∀ block < state.lastBlock, held block = other block) :
    Accumulated other rates decimals state where
  total := by
    obtain ⟨pending, pends, total⟩ := accumulated.total
    exact ⟨pending, pends, total.trans (expectedNumerator_congr same)⟩
  started := accumulated.started
  integrated segment member ends := by
    have before := accumulated.integrated segment member ends
    unfold IntegratedTo at before ⊢
    rw [← segmentIntegral_congr same]
    exact before

/-! ## Rate lists that have grown -/

/-- A segment of the longer list begins late, or is one of the shorter list up to its end. -/
theorem mem_segments_append (later : ∀ point ∈ more, toBlock < point.fromBlock)
    {segment : RatePoint × Option Nat} (member : segment ∈ segments (known ++ more)) :
    toBlock < segment.1.fromBlock ∨
      ∃ shorter, (segment.1, shorter) ∈ segments known ∧ SameEnd toBlock segment.2 shorter := by
  induction known with
  | nil => exact .inl (later segment.1 (mem_of_segment member))
  | cons point rest ih =>
      rw [List.cons_append, segments] at member
      rcases List.mem_cons.mp member with rfl | inRest
      · right
        refine ⟨rest.head?.map RatePoint.fromBlock, List.mem_cons_self, ?_⟩
        cases rest with
        | cons second rest => exact .inl rfl
        | nil =>
            cases more with
            | nil => exact .inl rfl
            | cons first others =>
                exact .inr ⟨rfl, first.fromBlock, rfl, later first List.mem_cons_self⟩
      · rcases ih inRest with late | ⟨shorter, isSegment, same⟩
        · exact .inl late
        · exact .inr ⟨shorter, List.mem_cons_of_mem _ isSegment, same⟩

theorem segmentIntegral_sameEnd {point : RatePoint} {longer shorter : Option Nat}
    (same : SameEnd toBlock longer shorter) :
    segmentIntegral held toBlock (point, longer) =
      segmentIntegral held toBlock (point, shorter) := by
  unfold segmentIntegral
  rw [same.overlapTo_eq]

theorem expectedNumerator_append (later : ∀ point ∈ more, toBlock < point.fromBlock) :
    expectedNumerator held decimals (known ++ more) toBlock =
      expectedNumerator held decimals known toBlock := by
  have nothing (points : List RatePoint) (late : ∀ point ∈ points, toBlock < point.fromBlock) :
      expectedNumerator held decimals points toBlock = 0 := by
    apply List.sum_eq_zero
    intro part member
    obtain ⟨segment, isSegment, rfl⟩ := List.mem_map.mp member
    have after := late segment.1 (mem_of_segment isSegment)
    simp [segmentNumerator, segmentIntegral_before after.le]
  induction known with
  | nil => exact nothing more later
  | cons point rest ih =>
      have same : SameEnd toBlock ((rest ++ more).head?.map RatePoint.fromBlock)
          (rest.head?.map RatePoint.fromBlock) := by
        cases rest with
        | cons second rest => exact .inl rfl
        | nil =>
            cases more with
            | nil => exact .inl rfl
            | cons first others =>
                exact .inr ⟨rfl, first.fromBlock, rfl, later first List.mem_cons_self⟩
      unfold expectedNumerator at ih ⊢
      rw [List.cons_append, segments, segments, List.map_cons, List.map_cons, List.sum_cons,
        List.sum_cons, ih, segmentNumerator, segmentNumerator, segmentIntegral_sameEnd same]

theorem expectedNumerator_known (knownAt : KnownAt rates toBlock known) :
    expectedNumerator held decimals rates toBlock =
      expectedNumerator held decimals known toBlock := by
  obtain ⟨more, rfl, later⟩ := knownAt
  exact expectedNumerator_append later

/-- A state keeps what it has accumulated when points are added after its last block. -/
theorem Accumulated.extend (accumulated : Accumulated held known decimals state)
    (knownAt : KnownAt rates state.lastBlock known) : Accumulated held rates decimals state := by
  have sameNumerator : expectedNumerator held decimals rates state.lastBlock =
      expectedNumerator held decimals known state.lastBlock := expectedNumerator_known knownAt
  obtain ⟨more, rfl, later⟩ := knownAt
  constructor
  · obtain ⟨pending, pends, total⟩ := accumulated.total
    refine ⟨pending, ?_, total.trans sameNumerator.symm⟩
    unfold pendingNumerator at pends ⊢
    cases active : state.activeSegmentFrom with
    | none => rwa [active] at pends
    | some fromBlock =>
        rw [active] at pends
        simpa only [rateFor_known later (accumulated.started fromBlock active)] using pends
  · exact accumulated.started
  · intro segment member ends
    rcases mem_segments_append later member with late | ⟨shorter, isSegment, same⟩
    · refine (segmentIntegral_before late.le).trans (if_neg ?_).symm
      intro active
      have before := accumulated.started segment.1.fromBlock active
      omega
    · have endsShorter : EndsAfter state.lastBlock (segment.1, shorter) := by
        intro next isNext
        rcases same with equal | ⟨none, -⟩
        · exact ends next (equal.trans isNext)
        · cases none.symm.trans isNext
      have before := accumulated.integrated (segment.1, shorter) isSegment endsShorter
      unfold IntegratedTo at before ⊢
      rw [← before, ← segmentIntegral_sameEnd same]

/-! ## Going on -/

/-- An advance leaves the balance. -/
theorem balanceAt_advance (balance : Nat) (ops : List ScoreOp) (toBlock block : Nat) :
    balanceAt balance (ops ++ [.advance toBlock]) block = balanceAt balance ops block := by
  by_cases reached : toBlock ≤ block
  · simp [balanceAt, ScoreOp.block, ScoreOp.credit, reached]
  · simp [balanceAt, ScoreOp.block, reached]

theorem updates_last {updates : List ScoreUpdate}
    (run : updates.foldlM (ScoreUpdate.apply decimals) state = .ok final) :
    final.balance = (updates.map ScoreUpdate.op).foldl ScoreOp.credit state.balance := by
  induction updates generalizing state with
  | nil =>
      cases (pure_ok_iff _ _).mp run
      rfl
  | cons update rest ih =>
      rw [List.foldlM_cons] at run
      obtain ⟨middle, first, run⟩ := (bind_ok_iff _ _ _).mp run
      obtain ⟨-, -, balance, -⟩ := apply_frame first
      rw [ih run, balance]
      rfl

theorem updates_lastBlock {updates : List ScoreUpdate}
    (run : updates.foldlM (ScoreUpdate.apply decimals) state = .ok final)
    (begun : state.lastBlock ≤ toBlock) (inside : ∀ update ∈ updates, update.op.block ≤ toBlock) :
    final.lastBlock ≤ toBlock := by
  induction updates generalizing state with
  | nil =>
      rw [← (pure_ok_iff _ _).mp run]
      exact begun
  | cons update rest ih =>
      rw [List.foldlM_cons] at run
      obtain ⟨middle, first, run⟩ := (bind_ok_iff _ _ _).mp run
      obtain ⟨-, -, -, lastBlock⟩ := apply_frame first
      refine ih run ?_ fun other member => inside other (List.mem_cons_of_mem _ member)
      rw [lastBlock]
      exact inside update List.mem_cons_self

theorem balanceAt_all {ops : List ScoreOp} {balance : Nat}
    (inside : ∀ op ∈ ops, op.block ≤ toBlock) :
    balanceAt balance ops toBlock = ops.foldl ScoreOp.credit balance := by
  rw [balanceAt, List.filter_eq_self.mpr fun op member => decide_eq_true (inside op member)]

/-- Covered operations from a higher balance go through balances that are higher by as much. -/
theorem balanceAt_shift {ops : List ScoreOp} {balance last block : Nat} (extra : Nat)
    (timely : Timely last ops) (covered : Covered balance ops) :
    balanceAt (extra + balance) ops block = extra + balanceAt balance ops block := by
  induction ops generalizing balance last with
  | nil => rfl
  | cons op rest ih =>
      by_cases reached : op.block ≤ block
      · have credited : op.credit (extra + balance) = extra + op.credit balance := by
          cases op with
          | advance toBlock => rfl
          | transfer place inflow outflow =>
              have enough := covered.1 place inflow outflow rfl
              simp only [ScoreOp.credit]
              omega
        rw [balanceAt_cons reached, balanceAt_cons reached, credited, ih timely.2 covered.2]
      · have later : Timely op.block (op :: rest) := ⟨Nat.le_refl _, timely.2⟩
        rw [balanceAt_before later (Nat.not_le.mp reached),
          balanceAt_before later (Nat.not_le.mp reached)]

theorem KnownAt.trans {middle : List RatePoint} {earlier : Nat}
    (late : KnownAt rates toBlock middle) (early : KnownAt middle earlier known)
    (forward : earlier ≤ toBlock) : KnownAt rates earlier known := by
  obtain ⟨more, rfl, later⟩ := late
  obtain ⟨others, rfl, after⟩ := early
  refine ⟨others ++ more, List.append_assoc _ _ _, fun point member => ?_⟩
  rcases List.mem_append.mp member with inOthers | inMore
  · exact after point inOthers
  · exact forward.trans_lt (later point inMore)

/-- The balance that a history of operations makes of the one at `fromBlock`, and what was held
before. -/
def heldThrough (held : Nat → Nat) (fromBlock balance : Nat) (ops : List ScoreOp) (block : Nat) :
    Nat :=
  if block < fromBlock then held block else balanceAt balance ops block

/-- Operations with one rate list take a state that accumulated with an earlier one to a state that
accumulates with the list. -/
theorem ops_accumulate (ascending : Ascending rates)
    (knownAt : KnownAt rates state.lastBlock known) {ops : List ScoreOp}
    (run : (ops.map (ScoreUpdate.mk rates)).foldlM (ScoreUpdate.apply decimals) state = .ok final)
    (accumulated : Accumulated held known decimals state) :
    Accumulated (heldThrough held state.lastBlock state.balance ops) rates decimals final := by
  have frame := updates_frame run
  have ops_eq : (ops.map (ScoreUpdate.mk rates)).map ScoreUpdate.op = ops := by
    rw [List.map_map]
    exact List.map_id ops
  have resumed : Accumulated (heldThrough held state.lastBlock state.balance ops) rates decimals
      state :=
    (accumulated.extend knownAt).congr fun block early => (if_pos early).symm
  have allKnown : ∀ update ∈ ops.map (ScoreUpdate.mk rates),
      KnownAt rates update.op.block update.rates := by
    intro update member
    obtain ⟨op, -, rfl⟩ := List.mem_map.mp member
    exact KnownAt.refl rates op.block
  obtain ⟨reached, ran, accumulates, -⟩ := updates_accumulate ascending allKnown frame.1 frame.2
    (by
      intro block late
      rw [ops_eq]
      exact if_neg (Nat.not_lt.mpr late)) resumed
  cases run.symm.trans ran
  exact accumulates

end Resumed

end Usd8Core.Score
