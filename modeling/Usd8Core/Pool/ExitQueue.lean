import Usd8Core.Pool.PoolRuns

/-!
# Order of the exit queue

A request is assigned an epoch that no earlier request was placed behind, and an
epoch is settled once, when the cursor passes it.
-/

set_option autoImplicit false

namespace Usd8Core.Pool

open Usd8Core.Lib.ByteWords
open Usd8Core.Lib.CheckedCall
open Usd8Core.Lib.TraceRun
open Usd8Core.Chain
open Usd8Core.Insurance

section Requests

variable {env : PoolEnv} {tx next : PoolTx}

/-- What a request leaves in the pool, and where its epoch stands in the queue. -/
theorem requested_outcome (settled : PoolTx) (shares exitEpoch : Nat) (caller : CallerOk env)
    (accounts : TxAccounts env tx) (requested : Requested env tx settled next shares exitEpoch) :
    next.pool.exitRequests env.sender = ⟨shares, exitEpoch⟩ ∧
      exitEpoch ∈ next.pool.exitEpochQueue ∧ env.now < exitEpoch ∧
      env.now + env.registry.exitTimingConfig.unstakeCooldown ≤ exitEpoch ∧
      ∀ entry ∈ tx.pool.exitEpochQueue, entry ≤ exitEpoch := by
  have settledAccounts := maybeSettled_accounts _ accounts requested.first
  have frame := maybeSettled_frame _ requested.first
  obtain ⟨future, last⟩ :=
    assigned_is_last env exitEpoch settledAccounts caller.cooldown requested.assigned
  obtain ⟨delayed, -⟩ := calculateExitEpoch_ok env settled.pool env.now exitEpoch requested.assigned
  obtain ⟨pool, enqueued, nextEq⟩ := requested.enqueued
  obtain ⟨synced, userSynced, global, user, moved⟩ :=
    enqueueRedeem_ok env settled.pool pool shares exitEpoch enqueued
  obtain ⟨acc, syncedEq⟩ := checkpointGlobalRewards_accumulator _ synced env.self env.now global
  obtain ⟨userAcc, userEq⟩ :=
    checkpointUserRewards_accumulator synced userSynced env.self env.now env.sender user
  subst syncedEq userEq
  obtain ⟨-, poolEq⟩ := erc20Update_move _ pool env.self env.sender env.self shares
    caller.senderNotZero caller.selfNotZero moved
  have requestsEq : next.pool.exitRequests =
      Function.update settled.pool.exitRequests env.sender ⟨shares, exitEpoch⟩ := by
    rw [nextEq, poolEq]
    rfl
  have queueEq : next.pool.exitEpochQueue =
      (queuedRequest settled.pool env.sender shares exitEpoch).exitEpochQueue := by
    rw [nextEq, poolEq]
    rfl
  refine ⟨by rw [requestsEq, Function.update_self], ?_, future, delayed, ?_⟩
  · rw [queueEq]
    unfold queuedRequest
    dsimp only
    by_cases unusedEpoch : (settled.pool.exitEpochs exitEpoch).totalShares = 0
    · rw [if_pos unusedEpoch]
      simp
    · rw [if_neg unusedEpoch]
      by_contra absent
      exact unusedEpoch (settledAccounts.book.unused exitEpoch absent).1
  · intro entry member
    exact last entry (frame.queue.subset member)

end Requests

/-! ## In a run of the system -/

/-- The transition is a request by which the pool assigned `exitEpoch`. -/
def AssignsEpoch (p : Address) (t : Transition World Tx) (exitEpoch : Nat) : Prop :=
  ∃ sender shares pool, t.action = .pool p sender (.requestRedeem shares) ∧
    t.after.pools p = some pool ∧ (pool.exitRequests sender).exitEpoch = exitEpoch

section Runs

variable {platform : Platform} {p : Address} {w next : World}

/-- The queue of a pool only grows at its end. -/
def QueueGrows (p : Address) (w next : World) : Prop :=
  ∀ pool, w.pools p = some pool → ∃ after, next.pools p = some after ∧
    pool.exitEpochQueue <+: after.exitEpochQueue

theorem QueueGrows.trans {middle : World} (first : QueueGrows p w middle)
    (second : QueueGrows p middle next) : QueueGrows p w next := by
  intro pool present
  obtain ⟨between, presentBetween, grown⟩ := first pool present
  obtain ⟨after, presentAfter, grownAfter⟩ := second between presentBetween
  exact ⟨after, presentAfter, grown.trans grownAfter⟩

theorem PoolEffect.queueGrows (effect : PoolEffect p w next) : QueueGrows p w next := by
  intro pool present
  cases effect with
  | passive same later richer quiet => exact ⟨pool, same.trans present, List.prefix_rfl⟩
  | called sender call caller run =>
      obtain ⟨before, tx, presentBefore, executed, nextEq⟩ := callPool_ok sender call run
      cases present.symm.trans presentBefore
      refine ⟨tx.pool, ?_, (exec_frame call executed).queue⟩
      rw [nextEq, emitAll_eq]
      exact Function.update_self ..
  | deployed asset fresh presentAfter quiet =>
      rw [fresh] at present
      cases present

theorem poolEffects_queueGrows (effects : PoolEffects p w next) : QueueGrows p w next := by
  induction effects with
  | refl => exact fun pool present => ⟨pool, present, List.prefix_rfl⟩
  | tail _ last ih => exact ih.trans last.queueGrows

theorem run_queueGrows {steps : List (Transition World Tx)} (reachable : Reachable platform w)
    (run : IsRun (step platform) w steps next) : QueueGrows p w next := by
  induction run with
  | nil => exact fun pool present => ⟨pool, present, List.prefix_rfl⟩
  | snoc steps middle action final run last ih =>
      have deployment := reachable_deployment (reachable.extend run)
      exact ih.trans (poolEffects_queueGrows (step_poolEffects deployment last))

/-- What an assignment in a run says about the pool before and after it. -/
theorem assigned_in_run (reachable : Reachable platform w) {tx : Tx} (exitEpoch : Nat)
    (ran : step platform w tx = .ok next) (assigns : AssignsEpoch p ⟨w, tx, next⟩ exitEpoch) :
    ∃ before after, w.pools p = some before ∧ next.pools p = some after ∧
      exitEpoch ∈ after.exitEpochQueue ∧ w.now < exitEpoch ∧
      w.now + w.registry.exitTimingConfig.unstakeCooldown ≤ exitEpoch ∧
      ∀ entry ∈ before.exitEpochQueue, entry ≤ exitEpoch := by
  obtain ⟨sender, shares, after, actionEq, presentAfter, requestEq⟩ := assigns
  dsimp only at actionEq presentAfter
  subst actionEq
  cases step_cases ran with
  | tokens _ move erc20 erc1155 erc20Kept erc1155Kept nextEq => exact absurd move id
  | pool _ _ _ external run =>
      obtain ⟨before, final, present, executed, nextEq⟩ :=
        callPool_ok sender (.requestRedeem shares) run
      obtain ⟨notZero, -, notPool⟩ := Deployment.notExternal external
      have deployment := reachable_deployment reachable
      have isPool : (w.pools p).isSome = true := by rw [present]; rfl
      have caller : CallerOk (w.poolEnv p sender) := by
        refine ⟨notZero, ?_, deployment.poolNotZero p isPool, deployment.cooldown⟩
        rintro (rfl : sender = p)
        rw [notPool] at isPool
        cases isPool
      have accounts : TxAccounts (w.poolEnv p sender) ⟨before, w.erc20, []⟩ :=
        (reachable_poolInOrder reachable present).accounts
      obtain ⟨_, -, requestRun⟩ := (bind_ok_iff _ _ _).mp executed
      obtain ⟨settled, assigned, requested⟩ := requestRedeem_ok _ _ final shares requestRun
      obtain ⟨request, queued, future, delayed, last⟩ :=
        requested_outcome settled shares assigned caller accounts requested
      have finalEq : next.pools p = some final.pool := by
        rw [nextEq, emitAll_eq]
        exact Function.update_self ..
      cases presentAfter.symm.trans finalEq
      have sameEpoch : assigned = exitEpoch := by
        rw [← requestEq]
        exact (congrArg ExitRequest.exitEpoch request).symm
      subst sameEpoch
      exact ⟨before, final.pool, present, finalEq, queued, future, delayed, last⟩

/-- Every queue in every run: ascending; each request gets an epoch later than now,
not before its cooldown and not settled; successive requests get epochs in order; an
entry is settled once, exactly when the cursor has passed it. -/
theorem exit_queue_in_order {steps : List (Transition World Tx)} {pool : SingleAssetCoverPool}
    (run : SystemRun platform steps w) (present : w.pools p = some pool) :
    pool.exitEpochQueue.Pairwise (· < ·) ∧ pool.exitEpochQueue.Nodup ∧
      (∀ t ∈ steps, ∀ exitEpoch, AssignsEpoch p t exitEpoch →
        t.before.now < exitEpoch ∧
          t.before.now + t.before.registry.exitTimingConfig.unstakeCooldown ≤ exitEpoch ∧
          exitEpoch ∉ settledEpochs (eventsOf t.after p)) ∧
      (∀ earlier first between second later firstEpoch secondEpoch,
        steps = earlier ++ first :: (between ++ second :: later) →
        AssignsEpoch p first firstEpoch → AssignsEpoch p second secondEpoch →
        firstEpoch ≤ secondEpoch) ∧
      ∀ (i exitEpoch : Nat), pool.exitEpochQueue[i]? = some exitEpoch →
        (settledEpochs (eventsOf w p)).count exitEpoch =
          if i < pool.nextExitEpochIndex then 1 else 0 := by
  have inOrder := reachable_poolInOrder run.reachable present
  have book := inOrder.accounts.book
  refine ⟨book.ascending, book.nodup, ?_, ?_, ?_⟩
  · intro t member exitEpoch assigns
    obtain ⟨earlier, later, stepsEq⟩ := List.append_of_mem member
    rw [stepsEq] at run
    obtain ⟨before, ran, -⟩ := run.split_at
    obtain ⟨_, after, -, presentAfter, -, future, delayed, -⟩ :=
      assigned_in_run before.reachable exitEpoch ran assigns
    have afterOrder := reachable_poolInOrder (before.reachable.step ran) presentAfter
    refine ⟨future, delayed, ?_⟩
    rw [afterOrder.history]
    intro alreadySettled
    -- a settled epoch has matured, and the clock does not move inside a call
    have past := afterOrder.accounts.book.settled_past exitEpoch alreadySettled
    have sameTime : t.after.now = t.before.now := by
      obtain ⟨sender, shares, -, actionEq, -, -⟩ := assigns
      rw [actionEq] at ran
      cases step_cases ran with
      | tokens _ move erc20 erc1155 erc20Kept erc1155Kept nextEq => exact absurd move id
      | pool _ _ _ external callRun =>
          rw [World.now, World.now, (callPool_frame sender _ callRun).1]
    omega
  · intro earlier first between second later firstEpoch secondEpoch stepsEq assignsFirst assignsSecond
    rw [stepsEq] at run
    obtain ⟨start, ranFirst, rest⟩ := run.split_at
    obtain ⟨middle, ranSecond, -⟩ := rest.split_at
    have afterFirst := start.reachable.step ranFirst
    obtain ⟨_, placed, -, presentPlaced, queued, -, -, -⟩ :=
      assigned_in_run start.reachable firstEpoch ranFirst assignsFirst
    obtain ⟨before, _, presentBefore, -, -, -, -, last⟩ :=
      assigned_in_run (afterFirst.extend middle) secondEpoch ranSecond assignsSecond
    obtain ⟨grown, presentGrown, extended⟩ := run_queueGrows afterFirst middle placed presentPlaced
    cases presentBefore.symm.trans presentGrown
    exact last firstEpoch (extended.subset queued)
  · intro i exitEpoch atIndex
    rw [inOrder.history]
    change (pool.exitEpochQueue.take pool.nextExitEpochIndex).count exitEpoch = _
    have distinct := book.nodup
    have queueDistinct : pool.exitEpochQueue.Nodup := distinct
    have takenDistinct := (List.take_sublist pool.nextExitEpochIndex
      pool.exitEpochQueue).nodup queueDistinct
    obtain ⟨inside, valueEq⟩ := List.getElem?_eq_some_iff.mp atIndex
    split
    next passed =>
      apply List.count_eq_one_of_mem takenDistinct
      rw [List.mem_take_iff_getElem]
      exact ⟨i, by omega, valueEq⟩
    next ahead =>
      apply List.count_eq_zero_of_not_mem
      intro member
      rw [List.mem_take_iff_getElem] at member
      obtain ⟨j, bound, sameValue⟩ := member
      have sameIndex := (List.Nodup.getElem_inj_iff queueDistinct).mp (sameValue.trans valueEq.symm)
      omega

/-- Both requests of the small deployment: the first epoch is settled, the second
one is still ahead. -/
theorem smallDeployment_queue_in_order :
    ∃ steps w pool, SystemRun SmallDeployment.platform steps w ∧
      w.pools SmallDeployment.pool = some pool ∧
      pool.exitEpochQueue = [1814400, 2073600] ∧ pool.nextExitEpochIndex = 1 ∧
      ∀ (i exitEpoch : Nat), pool.exitEpochQueue[i]? = some exitEpoch →
        (settledEpochs (eventsOf w SmallDeployment.pool)).count exitEpoch =
          if i < pool.nextExitEpochIndex then 1 else 0 := by
  obtain ⟨steps, w, run, checked⟩ := SmallDeployment.reaches
    (SmallDeployment.stake ++ SmallDeployment.exit)
    (fun w => (w.pools SmallDeployment.pool).any fun pool =>
      pool.exitEpochQueue == [1814400, 2073600] && pool.nextExitEpochIndex == 1)
    (by decide +kernel)
  obtain ⟨pool, present, queue⟩ := (Option.any_eq_true _ _).mp checked
  simp only [Bool.and_eq_true, beq_iff_eq] at queue
  exact ⟨steps, w, pool, run, present, queue.1, queue.2,
    (exit_queue_in_order run present).2.2.2.2⟩

end Runs

end Usd8Core.Pool
