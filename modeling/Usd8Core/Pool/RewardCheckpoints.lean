import Usd8Core.Pool.PoolRuns

/-!
# Global reward checkpoints compose

When a global checkpoint succeeds and what it writes, as a function of the pool,
the earning shares and the time.  A checkpoint in between carries its division
remainder on, so it changes nothing about a later one.
-/

set_option autoImplicit false

namespace Usd8Core.Pool

open Usd8Core.Lib.ByteWords
open Usd8Core.Lib.CheckedCall
open Usd8Core.Chain

section Checkpoint

variable {here : Address} {now : Nat} {pool next : SingleAssetCoverPool}

/-- The scaled reward a checkpoint at reward time `t` divides among the shares. -/
def streamed (pool : SingleAssetCoverPool) (t : Nat) : Nat :=
  (t - pool.lastUpdateTime) * pool.rewardRate * rewardScale + pool.rewardResidual

/-- Nobody earns: the rest of the window moves to `now`. -/
def deferred (pool : SingleAssetCoverPool) (now : Nat) : SingleAssetCoverPool :=
  { pool with
    periodFinish :=
      if pool.rewardRate ≠ 0 ∧ pool.lastUpdateTime < pool.periodFinish then
        now + (pool.periodFinish - pool.lastUpdateTime)
      else pool.periodFinish
    lastUpdateTime := now }

/-- The shares earn up to reward time `t`. -/
def accrued (pool : SingleAssetCoverPool) (earning t : Nat) : SingleAssetCoverPool :=
  { pool with
    rewardPerShareStored :=
      if pool.lastUpdateTime < t then pool.rewardPerShareStored + streamed pool t / earning
      else pool.rewardPerShareStored
    rewardResidual :=
      if pool.lastUpdateTime < t then streamed pool t % earning else pool.rewardResidual
    lastUpdateTime := t }

theorem accrued_started {earning t : Nat} (started : pool.lastUpdateTime < t) :
    accrued pool earning t = { pool with
      rewardPerShareStored := pool.rewardPerShareStored + streamed pool t / earning
      rewardResidual := streamed pool t % earning
      lastUpdateTime := t } := by
  simp only [accrued, if_pos started]

def DeferFits (pool : SingleAssetCoverPool) (now : Nat) : Prop :=
  pool.rewardRate ≠ 0 → pool.lastUpdateTime < pool.periodFinish →
    now + (pool.periodFinish - pool.lastUpdateTime) < uintBound 64

def AccrueFits (pool : SingleAssetCoverPool) (earning t : Nat) : Prop :=
  pool.lastUpdateTime < t → streamed pool t < uintBound 256 ∧
    pool.rewardPerShareStored + streamed pool t / earning < uintBound 256

theorem rewardTime_le_now (pool : SingleAssetCoverPool) (now : Nat) :
    pool.rewardTime now ≤ now := by
  unfold SingleAssetCoverPool.rewardTime
  split <;> omega

theorem rewardTime_le_finish (pool : SingleAssetCoverPool) (now : Nat) :
    pool.rewardTime now ≤ pool.periodFinish := by
  unfold SingleAssetCoverPool.rewardTime
  split <;> omega

theorem rewardTime_eq_min (pool : SingleAssetCoverPool) (now : Nat) :
    pool.rewardTime now = min now pool.periodFinish := by
  unfold SingleAssetCoverPool.rewardTime
  split <;> omega

/-- The products on the way to the numerator fit when it does. -/
theorem rewardNumerator_ok_iff (t value : Nat) :
    pool.rewardNumerator t = .ok value ↔
      pool.lastUpdateTime ≤ t ∧ streamed pool t < uintBound 256 ∧ value = streamed pool t := by
  simp only [SingleAssetCoverPool.rewardNumerator, bind_ok_iff, checkedSub_ok_iff,
    checkedMul_ok_iff, checkedAdd_ok_iff]
  constructor
  · rintro ⟨elapsed, ⟨forward, rfl⟩, product, ⟨-, rfl⟩, scaled, ⟨-, rfl⟩, fits, rfl⟩
    exact ⟨forward, fits, rfl⟩
  · rintro ⟨forward, fits, rfl⟩
    have unscaled : (t - pool.lastUpdateTime) * pool.rewardRate ≤
        (t - pool.lastUpdateTime) * pool.rewardRate * rewardScale :=
      Nat.le_mul_of_pos_right _ rewardScale_pos
    unfold streamed at fits
    exact ⟨_, ⟨forward, rfl⟩, _, ⟨by omega, rfl⟩, _, ⟨by omega, rfl⟩, fits, rfl⟩

theorem checkpointGlobalRewards_nobody (inTime : now < uintBound 64)
    (nobody : pool.earningShares here = .ok 0) :
    pool.checkpointGlobalRewards here now = .ok next ↔
      DeferFits pool now ∧ next = deferred pool now := by
  have nowFits : truncate 64 now = now := truncate_eq_self inTime
  simp only [SingleAssetCoverPool.checkpointGlobalRewards, nobody, bind_ok_iff, nowFits,
    Except.ok.injEq, exists_eq_left', if_true, DeferFits, deferred]
  by_cases running : pool.rewardRate ≠ 0 ∧ pool.lastUpdateTime < pool.periodFinish
  · simp only [ne_eq, gt_iff_lt] at running ⊢
    rw [if_pos running, if_pos running]
    simp only [bind_ok_iff, checkedAdd_ok_iff, pure_ok_iff]
    constructor
    · rintro ⟨finish, ⟨fits, rfl⟩, rfl⟩
      exact ⟨fun _ _ => fits, rfl⟩
    · rintro ⟨fits, rfl⟩
      exact ⟨_, ⟨fits running.1 running.2, rfl⟩, rfl⟩
  · simp only [ne_eq, gt_iff_lt] at running ⊢
    rw [if_neg running, if_neg running, pure_ok_iff]
    constructor
    · rintro rfl
      exact ⟨fun rate ahead => absurd ⟨rate, ahead⟩ running, rfl⟩
    · rintro ⟨-, rfl⟩
      rfl

theorem checkpointGlobalRewards_somebody {earning : Nat} (inTime : now < uintBound 64)
    (earns : pool.earningShares here = .ok earning) (somebody : earning ≠ 0) :
    pool.checkpointGlobalRewards here now = .ok next ↔
      AccrueFits pool earning (pool.rewardTime now) ∧
        next = accrued pool earning (pool.rewardTime now) := by
  have timeFits : truncate 64 (pool.rewardTime now) = pool.rewardTime now :=
    truncate_eq_self ((rewardTime_le_now pool now).trans_lt inTime)
  simp only [SingleAssetCoverPool.checkpointGlobalRewards, earns, bind_ok_iff, timeFits,
    Except.ok.injEq, exists_eq_left', if_neg somebody, AccrueFits, accrued]
  by_cases forward : pool.lastUpdateTime < pool.rewardTime now
  · rw [if_pos forward, if_pos forward, if_pos forward]
    simp only [bind_ok_iff, rewardNumerator_ok_iff, checkedAdd_ok_iff, pure_ok_iff]
    constructor
    · rintro ⟨numerator, ⟨-, fits, rfl⟩, stored, ⟨storedFits, rfl⟩, rfl⟩
      exact ⟨fun _ => ⟨fits, storedFits⟩, rfl⟩
    · rintro ⟨fits, rfl⟩
      exact ⟨_, ⟨forward.le, (fits forward).1, rfl⟩, _, ⟨(fits forward).2, rfl⟩, rfl⟩
  · rw [if_neg forward, if_neg forward, if_neg forward, pure_ok_iff]
    constructor
    · rintro rfl
      exact ⟨fun ahead => absurd ahead forward, rfl⟩
    · rintro ⟨-, rfl⟩
      rfl

/-! ## Two checkpoints in a row -/

theorem deferred_deferred {earlier later : Nat} (forward : pool.lastUpdateTime ≤ earlier)
    (ordered : earlier ≤ later) (fits : DeferFits pool later) :
    DeferFits pool earlier ∧ DeferFits (deferred pool earlier) later ∧
      deferred (deferred pool earlier) later = deferred pool later := by
  unfold DeferFits at fits
  by_cases running : pool.rewardRate ≠ 0 ∧ pool.lastUpdateTime < pool.periodFinish
  · have room := fits running.1 running.2
    have still : earlier < earlier + (pool.periodFinish - pool.lastUpdateTime) := by omega
    have same : earlier + (pool.periodFinish - pool.lastUpdateTime) - earlier =
        pool.periodFinish - pool.lastUpdateTime := Nat.add_sub_cancel_left ..
    refine ⟨fun _ _ => by omega, ?_, ?_⟩
    · simp only [DeferFits, deferred, if_pos running, same]
      exact fun _ _ => room
    · simp only [deferred, if_pos running, if_pos (And.intro running.1 still), same]
  · -- a stream that has ended stays ended: the clock only moves forward
    have ended : ¬ (pool.rewardRate ≠ 0 ∧ earlier < pool.periodFinish) := by
      rintro ⟨rate, ahead⟩
      exact running ⟨rate, by omega⟩
    refine ⟨fun rate ahead => absurd ⟨rate, ahead⟩ running, ?_, ?_⟩
    · simp only [DeferFits, deferred, if_neg running]
      exact fun rate ahead => absurd ⟨rate, ahead⟩ ended
    · simp only [deferred, if_neg running, if_neg ended]

/-- Dividing in two steps with the remainder carried over is dividing once. -/
theorem carried_division (first second divisor : Nat) (positive : 0 < divisor) :
    (first + second) / divisor = first / divisor + (second + first % divisor) / divisor ∧
      (first + second) % divisor = (second + first % divisor) % divisor := by
  have whole : first + second = (second + first % divisor) + divisor * (first / divisor) := by
    have split := Nat.div_add_mod first divisor
    omega
  constructor
  · rw [whole, Nat.add_mul_div_left _ _ positive, Nat.add_comm]
  · rw [whole, Nat.add_mul_mod_self_left]

theorem streamed_accrued {earning first second : Nat} (started : pool.lastUpdateTime < first)
    (ordered : first ≤ second) :
    streamed pool second =
        streamed pool first + (second - first) * pool.rewardRate * rewardScale ∧
      streamed (accrued pool earning first) second =
        (second - first) * pool.rewardRate * rewardScale + streamed pool first % earning := by
  constructor
  · have elapsed : second - pool.lastUpdateTime =
        (first - pool.lastUpdateTime) + (second - first) := by omega
    simp only [streamed, elapsed, Nat.add_mul]
    omega
  · simp only [streamed, accrued, if_pos started]

theorem accrued_accrued {earning first second : Nat} (positive : 0 < earning)
    (ordered : first ≤ second) (clipped : pool.lastUpdateTime ≤ first ∨ first = second)
    (fits : AccrueFits pool earning second) :
    AccrueFits pool earning first ∧ AccrueFits (accrued pool earning first) earning second ∧
      accrued (accrued pool earning first) earning second = accrued pool earning second := by
  unfold AccrueFits at fits
  by_cases started : pool.lastUpdateTime < first
  · have accrual : streamed pool second =
          streamed pool first + (second - first) * pool.rewardRate * rewardScale ∧
        streamed (accrued pool earning first) second =
          (second - first) * pool.rewardRate * rewardScale + streamed pool first % earning :=
      streamed_accrued started ordered
    obtain ⟨total, rest⟩ := accrual
    obtain ⟨fitsTotal, fitsStored⟩ := fits (by omega)
    obtain ⟨quotient, remainder⟩ := carried_division (streamed pool first)
      ((second - first) * pool.rewardRate * rewardScale) earning positive
    rw [← total, ← rest] at quotient remainder
    have part : streamed pool first % earning ≤ streamed pool first := Nat.mod_le _ _
    rw [quotient, ← Nat.add_assoc] at fitsStored
    have fitsRest : streamed (accrued pool earning first) second < uintBound 256 := by
      rw [rest]
      omega
    refine ⟨fun _ => ⟨by omega, (Nat.le_add_right _ _).trans_lt fitsStored⟩,
      fun _ => ⟨fitsRest, ?_⟩, ?_⟩
    · have stored : (accrued pool earning first).rewardPerShareStored =
          pool.rewardPerShareStored + streamed pool first / earning := if_pos started
      rw [stored]
      exact fitsStored
    · have started' : pool.lastUpdateTime < second := by omega
      rcases Nat.eq_or_lt_of_le ordered with same | ahead
      · subst same
        simp only [accrued, if_pos started, lt_irrefl, if_false]
      · have aheadAfter : (accrued pool earning first).lastUpdateTime < second := ahead
        rw [accrued_started aheadAfter, accrued_started started', quotient, remainder,
          accrued_started started, Nat.add_assoc]
  · have idle : AccrueFits pool earning first := fun ahead => absurd ahead started
    rcases clipped with reached | same
    · have atStart : first = pool.lastUpdateTime := by omega
      have unchanged : accrued pool earning first = pool := by
        simp only [accrued, if_neg started]
        rw [atStart]
      rw [unchanged]
      exact ⟨idle, fits, rfl⟩
    · subst same
      refine ⟨idle, fun ahead => absurd ahead (lt_irrefl first), ?_⟩
      simp only [accrued, if_neg started, lt_irrefl, if_false]

/-- A checkpoint that could run at `later` can also run after one at `earlier`, with the
same outcome. -/
theorem checkpoint_between {earlier later : Nat} (forward : pool.lastUpdateTime ≤ earlier)
    (ordered : earlier ≤ later) (inTime : later < uintBound 64)
    (run : pool.checkpointGlobalRewards here later = .ok next) :
    ∃ middle, pool.checkpointGlobalRewards here earlier = .ok middle ∧
      middle.lastUpdateTime ≤ earlier ∧
      middle.checkpointGlobalRewards here later = .ok next := by
  have inTimeEarlier : earlier < uintBound 64 := ordered.trans_lt inTime
  obtain ⟨earning, earns, -⟩ := (bind_ok_iff _ _ _).mp run
  by_cases nobody : earning = 0
  · subst nobody
    obtain ⟨fits, rfl⟩ := (checkpointGlobalRewards_nobody inTime earns).mp run
    obtain ⟨first, second, composed⟩ := deferred_deferred forward ordered fits
    refine ⟨deferred pool earlier,
      (checkpointGlobalRewards_nobody inTimeEarlier earns).mpr ⟨first, rfl⟩, le_rfl, ?_⟩
    have earnsAfter : (deferred pool earlier).earningShares here = .ok 0 := earns
    exact (checkpointGlobalRewards_nobody inTime earnsAfter).mpr ⟨second, composed.symm⟩
  · obtain ⟨fits, rfl⟩ := (checkpointGlobalRewards_somebody inTime earns nobody).mp run
    have timeOrdered : pool.rewardTime earlier ≤ pool.rewardTime later := by
      rw [rewardTime_eq_min, rewardTime_eq_min]
      omega
    -- past the end of the window both checkpoints see the same reward time
    have clipped : pool.lastUpdateTime ≤ pool.rewardTime earlier ∨
        pool.rewardTime earlier = pool.rewardTime later := by
      rw [rewardTime_eq_min, rewardTime_eq_min]
      omega
    obtain ⟨first, second, composed⟩ :=
      accrued_accrued (Nat.pos_of_ne_zero nobody) timeOrdered clipped fits
    refine ⟨accrued pool earning (pool.rewardTime earlier),
      (checkpointGlobalRewards_somebody inTimeEarlier earns nobody).mpr ⟨first, rfl⟩,
      rewardTime_le_now pool earlier, ?_⟩
    have earnsAfter : (accrued pool earning (pool.rewardTime earlier)).earningShares here =
        .ok earning := earns
    have sameTime : (accrued pool earning (pool.rewardTime earlier)).rewardTime later =
        pool.rewardTime later := rfl
    refine (checkpointGlobalRewards_somebody inTime earnsAfter nobody).mpr ?_
    rw [sameTime]
    exact ⟨second, composed.symm⟩

/-! ## Any number of checkpoints -/

/-- What the accumulator shows before a checkpoint is what the checkpoint stores. -/
theorem checkpoint_stores_rewardPerShare (inTime : now < uintBound 64)
    (run : pool.checkpointGlobalRewards here now = .ok next) :
    pool.rewardPerShareStored ≤ next.rewardPerShareStored ∧
      pool.rewardPerShare here now = .ok next.rewardPerShareStored := by
  obtain ⟨earning, earns, -⟩ := (bind_ok_iff _ _ _).mp run
  simp only [SingleAssetCoverPool.rewardPerShare, bind_ok_iff, earns, Except.ok.injEq,
    exists_eq_left']
  by_cases nobody : earning = 0
  · subst nobody
    obtain ⟨-, rfl⟩ := (checkpointGlobalRewards_nobody inTime earns).mp run
    exact ⟨le_rfl, rfl⟩
  · obtain ⟨fits, rfl⟩ := (checkpointGlobalRewards_somebody inTime earns nobody).mp run
    rw [if_neg nobody]
    by_cases forward : pool.lastUpdateTime < pool.rewardTime now
    · obtain ⟨fitsTotal, fitsStored⟩ := fits forward
      have stored : (accrued pool earning (pool.rewardTime now)).rewardPerShareStored =
          pool.rewardPerShareStored + streamed pool (pool.rewardTime now) / earning :=
        if_pos forward
      rw [stored, if_neg (Nat.not_le.mpr forward)]
      refine ⟨Nat.le_add_right _ _, (bind_ok_iff _ _ _).mpr
        ⟨streamed pool (pool.rewardTime now), ?_, ?_⟩⟩
      · exact (rewardNumerator_ok_iff _ _).mpr ⟨forward.le, fitsTotal, rfl⟩
      · exact (checkedAdd_ok_iff _ _ _ _).mpr ⟨fitsStored, rfl⟩
    · have stored : (accrued pool earning (pool.rewardTime now)).rewardPerShareStored =
          pool.rewardPerShareStored := if_neg forward
      rw [stored, if_pos (Nat.not_lt.mp forward)]
      exact ⟨le_rfl, rfl⟩

/-- Checkpoints at any non-decreasing times end where the last one alone ends. -/
theorem reward_checkpoints_compose (times : List Nat) (last : Nat)
    (ordered : (times ++ [last]).Pairwise (· ≤ ·))
    (forward : ∀ time ∈ times ++ [last], pool.lastUpdateTime ≤ time)
    (inTime : last < uintBound 64)
    (run : pool.checkpointGlobalRewards here last = .ok next) :
    (times ++ [last]).foldlM (fun pool now => pool.checkpointGlobalRewards here now) pool =
        .ok next ∧
      pool.rewardPerShareStored ≤ next.rewardPerShareStored ∧
      pool.rewardPerShare here last = .ok next.rewardPerShareStored := by
  refine ⟨?_, checkpoint_stores_rewardPerShare inTime run⟩
  induction times generalizing pool with
  | nil => simpa using run
  | cons first rest ih =>
      rw [List.cons_append, List.pairwise_cons] at ordered
      obtain ⟨afterFirst, ordered⟩ := ordered
      obtain ⟨middle, ran, reached, runLast⟩ := checkpoint_between
        (forward first (by simp)) (afterFirst last (by simp)) inTime run
      rw [List.cons_append, List.foldlM_cons, bind_ok_iff]
      refine ⟨middle, ran, ih ordered ?_ runLast⟩
      intro time member
      exact reached.trans (afterFirst time member)

end Checkpoint

/-- Three checkpoints of the small deployment's stream against the last one alone. -/
theorem smallDeployment_checkpoints_compose :
    ∃ w pool next, Reachable SmallDeployment.platform w ∧
      w.pools SmallDeployment.pool = some pool ∧ pool.rewardRate = 1 ∧
      pool.checkpointGlobalRewards SmallDeployment.pool 1500000 = .ok next ∧
      [1400000, 1450000, 1500000].foldlM
        (fun pool now => pool.checkpointGlobalRewards SmallDeployment.pool now) pool =
          .ok next ∧
      pool.rewardPerShare SmallDeployment.pool 1500000 = .ok next.rewardPerShareStored := by
  obtain ⟨steps, w, run, checked⟩ := SmallDeployment.reaches SmallDeployment.stake
    (fun w => (w.pools SmallDeployment.pool).any fun (pool : SingleAssetCoverPool) =>
      pool.rewardRate == 1 && decide (pool.lastUpdateTime ≤ 1400000) &&
      Except.isOk (pool.checkpointGlobalRewards SmallDeployment.pool 1500000))
    (by decide +kernel)
  obtain ⟨pool, present, checked⟩ := (Option.any_eq_true _ _).mp checked
  simp only [Bool.and_eq_true, beq_iff_eq, decide_eq_true_eq] at checked
  obtain ⟨⟨rate, updated⟩, ran⟩ := checked
  cases last : pool.checkpointGlobalRewards SmallDeployment.pool 1500000 with
  | error error =>
      rw [last] at ran
      cases ran
  | ok next =>
      have composed := reward_checkpoints_compose [1400000, 1450000] 1500000 (by decide)
        (by
          intro time member
          simp at member
          omega)
        (by decide) last
      exact ⟨w, pool, next, run.reachable, present, rate, last, composed.1, composed.2.2⟩

end Usd8Core.Pool
