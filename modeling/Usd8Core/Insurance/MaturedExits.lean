import Usd8Core.Insurance.Freeze
import Usd8Core.Pool.SettledExits
import Mathlib.Order.Interval.Finset.Nat

/-!
# Matured exits and the opening of an incident

Opening an incident settles every pool that will back it, so capital that has left
is not in the frozen balances, and what it was settled for cannot change any more.
-/

set_option autoImplicit false

namespace Usd8Core.Insurance

open Usd8Core.Lib.ByteWords
open Usd8Core.Lib.CheckedCall
open Usd8Core.Lib.TraceRun
open Usd8Core.Chain
open Usd8Core.Pool

/-- Every epoch the pool has not settled ends after `now`. -/
def NoneMatured (now : Nat) (pool : SingleAssetCoverPool) : Prop :=
  ∀ (i exitEpoch : Nat), pool.nextExitEpochIndex ≤ i →
    pool.exitEpochQueue[i]? = some exitEpoch → now < exitEpoch

/-- An ascending queue of 64-bit times. -/
structure QueueSound (pool : SingleAssetCoverPool) : Prop where
  ascending : pool.exitEpochQueue.Pairwise (· < ·)
  fits : QueueFits pool

section Settlement

variable {self : Address} {now : Nat} {pool final : SingleAssetCoverPool}

/-- Where the settlement loop stops. -/
theorem settleLoop_stops (maxEpochs : Nat) (queue : List Nat) (count : Nat)
    (events allEvents : List Event) (total : Nat)
    (run : SingleAssetCoverPool.settleLoop self now maxEpochs queue count pool events =
      .ok (final, allEvents, total)) :
    ∃ done, total = count + done ∧ done ≤ queue.length ∧
      (maxEpochs ≤ total ∨ ∀ exitEpoch, (queue.drop done).head? = some exitEpoch →
        now < exitEpoch) := by
  induction queue generalizing count pool events with
  | nil =>
      cases run
      exact ⟨0, rfl, le_rfl, Or.inr (by simp)⟩
  | cons first rest ih =>
      rw [SingleAssetCoverPool.settleLoop] at run
      rcases (ite_ok_iff _ _ _ _).mp run with ⟨-, run⟩ | ⟨limit, run⟩
      · rcases (ite_ok_iff _ _ _ _).mp run with ⟨future, run⟩ | ⟨-, run⟩
        · cases run
          exact ⟨0, rfl, Nat.zero_le _, Or.inr (by simpa using future)⟩
        · obtain ⟨⟨next, event⟩, -, run⟩ := (bind_ok_iff _ _ _).mp run
          obtain ⟨done, totalEq, inside, stopped⟩ := ih (count + 1) _ run
          refine ⟨done + 1, by omega, by simpa using inside, ?_⟩
          simpa using stopped
      · cases run
        exact ⟨0, rfl, Nat.zero_le _, Or.inl (Nat.le_of_not_lt limit)⟩

/-- A queue of distinct 64-bit times is far shorter than `type(uint256).max`. -/
theorem QueueSound.length_le (sound : QueueSound pool) :
    pool.exitEpochQueue.length ≤ uintBound 64 := by
  have distinct : pool.exitEpochQueue.Nodup := sound.ascending.imp fun below => Nat.ne_of_lt below
  rw [← List.toFinset_card_of_nodup distinct]
  have bounded : pool.exitEpochQueue.toFinset ⊆ Finset.range (uintBound 64) := by
    intro exitEpoch member
    exact Finset.mem_range.mpr (sound.fits exitEpoch (List.mem_toFinset.mp member))
  exact (Finset.card_le_card bounded).trans (Finset.card_range _).le

theorem settleMatured_noneMatured (events : List Event) (sound : QueueSound pool)
    (run : pool.settleMatured self now (uintBound 256 - 1) = .ok (final, events)) :
    NoneMatured now final := by
  have frame := settleMatured_frame pool final self now _ events run
  unfold SingleAssetCoverPool.settleMatured at run
  obtain ⟨⟨settled, all, count⟩, loopRun, result⟩ := (bind_ok_iff _ _ _).mp run
  obtain ⟨done, countEq, inside, stopped⟩ :=
    settleLoop_stops _ (pool.exitEpochQueue.drop pool.nextExitEpochIndex) 0 [] all count loopRun
  have indexEq : final.nextExitEpochIndex = pool.nextExitEpochIndex + done := by
    cases (pure_ok_iff _ _).mp result
    rw [countEq, Nat.zero_add]
  have short := sound.length_le
  have notLimit : ¬ uintBound 256 - 1 ≤ count := by
    rw [List.length_drop] at inside
    have bound : uintBound 64 < uintBound 256 - 1 := by decide
    omega
  have atHead := stopped.resolve_left notLimit
  intro i exitEpoch behind atIndex
  rw [frame.queue] at atIndex
  rw [indexEq] at behind
  obtain ⟨isInside, valueEq⟩ := List.getElem?_eq_some_iff.mp atIndex
  have headInside : pool.nextExitEpochIndex + done < pool.exitEpochQueue.length := by omega
  have headFuture := atHead (pool.exitEpochQueue[pool.nextExitEpochIndex + done]) (by
    rw [List.drop_drop, List.head?_drop, List.getElem?_eq_getElem headInside])
  rcases Nat.eq_or_lt_of_le behind with same | later
  · subst same
    rw [← valueEq]
    exact headFuture
  · have above := List.pairwise_iff_getElem.mp sound.ascending _ _ headInside isInside later
    rw [valueEq] at above
    exact headFuture.trans above

end Settlement

/-! ## Queues of reachable pools -/

section Queues

variable {platform : Platform} {m p : Address} {w next : World}

/-- Every deployed pool has a queue of 64-bit times. -/
def QueuesFit (p : Address) (w : World) : Prop :=
  ∀ pool, w.pools p = some pool → QueueFits pool

theorem poolEffect_queuesFit (effect : PoolEffect p w next) (fit : QueuesFit p w) :
    QueuesFit p next := by
  intro pool present
  cases effect with
  | passive same later richer quiet => exact fit pool (same.symm.trans present)
  | called sender call caller run =>
      obtain ⟨before, tx, presentBefore, executed, nextEq⟩ := callPool_ok sender call run
      have poolsEq : next.pools p = some tx.pool := by
        rw [nextEq, emitAll_eq]
        exact Function.update_self ..
      cases present.symm.trans poolsEq
      exact (exec_frame call executed).fits (fit before presentBefore)
  | deployed asset fresh presentAfter quiet =>
      cases present.symm.trans presentAfter
      intro exitEpoch member
      cases member

theorem poolEffects_queuesFit (effects : PoolEffects p w next) (fit : QueuesFit p w) :
    QueuesFit p next := by
  induction effects with
  | refl => exact fit
  | tail _ last ih => exact poolEffect_queuesFit last ih

theorem reachable_queueSound (reachable : Reachable platform w) {pool : SingleAssetCoverPool}
    (present : w.pools p = some pool) : QueueSound pool := by
  have both : Deployment w ∧ QueuesFit p w := by
    refine reachable.invariant (fun world => Deployment world ∧ QueuesFit p world) ?_ ?_
    · intro block timelock admin erc20 erc1155
      refine ⟨Deployment.genesis block timelock admin erc20 erc1155, ?_⟩
      intro pool absent
      cases absent
    · rintro world tx after ⟨deployment, fit⟩ ran
      exact ⟨deployment.step ran, poolEffects_queuesFit (step_poolEffects deployment ran) fit⟩
  exact ⟨(reachable_poolInOrder reachable present).accounts.book.ascending,
    both.2 pool present⟩

/-! ## Settling the listed pools -/

/-- Nothing that matured before the end of the block of `w` is left at `p`. -/
def Caught (p : Address) (w : World) : Prop :=
  ∃ pool, w.pools p = some pool ∧ NoneMatured w.now pool

theorem settleCall_pool (run : w.callPool p m (.settleMaturedExitEpochs (uintBound 256 - 1)) =
    .ok next) :
    ∃ before after events, w.pools p = some before ∧ next.pools p = some after ∧
      before.settleMatured p w.now (uintBound 256 - 1) = .ok (after, events) := by
  obtain ⟨before, tx, present, executed, nextEq⟩ := callPool_ok m _ run
  obtain ⟨_, -, settleRun⟩ := (bind_ok_iff _ _ _).mp executed
  unfold PoolTx.settleMaturedExitEpochs at settleRun
  obtain ⟨_, -, settleRun⟩ := (bind_ok_iff _ _ _).mp settleRun
  obtain ⟨⟨after, events⟩, loopRun, result⟩ := (bind_ok_iff _ _ _).mp settleRun
  cases (pure_ok_iff _ _).mp result
  refine ⟨before, after, events, present, ?_, loopRun⟩
  rw [nextEq, emitAll_eq]
  exact Function.update_self ..

theorem settleCall_sound (now : Nat) (other : Address)
    (sound : w.now = now ∧ ∀ p pool, w.pools p = some pool → QueueSound pool)
    (run : w.callPool other m (.settleMaturedExitEpochs (uintBound 256 - 1)) = .ok next) :
    next.now = now ∧ ∀ p pool, next.pools p = some pool → QueueSound pool := by
  obtain ⟨sameBlock, -, -, -, otherPools⟩ := callPool_frame m _ run
  refine ⟨by rw [World.now, sameBlock]; exact sound.1, ?_⟩
  intro p pool present
  by_cases same : p = other
  · subst same
    obtain ⟨before, after, events, presentBefore, presentAfter, settled⟩ := settleCall_pool run
    cases present.symm.trans presentAfter
    have kept := settleMatured_frame before pool p w.now _ events settled
    have soundBefore := sound.2 p before presentBefore
    refine ⟨?_, ?_⟩
    · rw [kept.queue]
      exact soundBefore.ascending
    · unfold QueueFits
      rw [kept.queue]
      exact soundBefore.fits
  · exact sound.2 p pool ((otherPools p same).symm.trans present)

theorem settleCall_caught (sound : ∀ p pool, w.pools p = some pool → QueueSound pool)
    (run : w.callPool p m (.settleMaturedExitEpochs (uintBound 256 - 1)) = .ok next) :
    Caught p next := by
  obtain ⟨before, after, events, presentBefore, presentAfter, settled⟩ := settleCall_pool run
  refine ⟨after, presentAfter, ?_⟩
  rw [World.now, (callPool_frame m _ run).1]
  exact settleMatured_noneMatured events (sound p before presentBefore) settled

theorem settleListedPools_caught (sound : ∀ p pool, w.pools p = some pool → QueueSound pool)
    (run : w.settleListedPools m = .ok next) :
    ∀ p ∈ w.registry.coverPools, Caught p next := by
  refine foldlM_achieves _
    (fun world => world.now = w.now ∧ ∀ p pool, world.pools p = some pool → QueueSound pool)
    Caught ?_ ?_ ?_ _ w next ⟨rfl, sound⟩ run
  · intro world other after kept ran
    exact settleCall_sound w.now other kept ran
  · intro world other after kept ran
    exact settleCall_caught kept.2 ran
  · intro done world other after kept caught ran
    by_cases same : done = other
    · subst same
      exact settleCall_caught kept.2 ran
    · obtain ⟨pool, present, noneMatured⟩ := caught
      obtain ⟨sameBlock, -, -, -, otherPools⟩ := callPool_frame m _ ran
      refine ⟨pool, (otherPools done same).trans present, ?_⟩
      rw [World.now, sameBlock]
      exact noneMatured

/-- An incident is opened over pools with no matured exit left to settle. -/
theorem openIncident_caught (token : Address) (referenceBlock : Nat) (teePcrHash : Hash)
    (sound : ∀ p pool, w.pools p = some pool → QueueSound pool)
    (run : w.openIncident m token referenceBlock teePcrHash = .ok next) :
    ∃ mod, next.modules m = some mod ∧
      ∀ p ∈ (mod.incidents (mod.nextIncidentId - 1)).pools, Caught p next := by
  obtain ⟨mod, claimDeadline, opened⟩ := openIncident_ok token referenceBlock teePcrHash run
  obtain ⟨settled, settledRun, only, nextEq⟩ := opened.outcome
  have caught := settleListedPools_caught sound settledRun
  refine ⟨World.openedModule mod token w.block w.registry referenceBlock claimDeadline teePcrHash,
    ?_, ?_⟩
  · rw [nextEq]
    exact Function.update_self ..
  · intro p member
    simp only [World.openedModule, Nat.add_sub_cancel, Function.update_self] at member
    obtain ⟨pool, present, noneMatured⟩ := caught p member
    refine ⟨pool, ?_, ?_⟩
    · rw [nextEq]
      exact present
    · rw [nextEq]
      exact noneMatured

end Queues

/-! ## Isolation from later losses -/

section Isolation

variable {platform : Platform} {w : World}

/-- An incident is opened over pools whose matured exits are all settled, and in any
two continuations of a run a settled epoch is worth the same and pays its requesters
the same, as far as they collect in the same order. -/
theorem matured_exits_isolated (reachable : Reachable platform w) :
    (∀ m token referenceBlock teePcrHash opened,
      w.openIncident m token referenceBlock teePcrHash = .ok opened →
      ∃ mod, opened.modules m = some mod ∧
        ∀ p ∈ (mod.incidents (mod.nextIncidentId - 1)).pools, Caught p opened) ∧
    ∀ p exitEpoch pool, w.pools p = some pool →
      exitEpoch ∈ pool.exitEpochQueue.take pool.nextExitEpochIndex →
      ∀ (first second : List (Transition World Tx)) (firstEnd secondEnd : World),
        IsRun (step platform) w first firstEnd → IsRun (step platform) w second secondEnd →
        (∃ firstPool secondPool, firstEnd.pools p = some firstPool ∧
          secondEnd.pools p = some secondPool ∧
          (firstPool.exitEpochs exitEpoch).totalAssets =
            (pool.exitEpochs exitEpoch).totalAssets ∧
          (secondPool.exitEpochs exitEpoch).totalAssets =
            (pool.exitEpochs exitEpoch).totalAssets) ∧
        ∀ n, ((redemptions p exitEpoch first).map Prod.fst).take n =
            ((redemptions p exitEpoch second).map Prod.fst).take n →
          (redemptions p exitEpoch first).take n = (redemptions p exitEpoch second).take n := by
  constructor
  · intro m token referenceBlock teePcrHash opened run
    exact openIncident_caught token referenceBlock teePcrHash
      (fun p pool present => reachable_queueSound reachable present) run
  · intro p exitEpoch pool present settled first second firstEnd secondEnd firstRun secondRun
    have holds : HoldsReceipt p exitEpoch w pool := ⟨present, settled⟩
    obtain ⟨firstPaid, firstPool, firstHolds, firstReceipt⟩ :=
      run_receipt reachable holds firstRun
    obtain ⟨secondPaid, secondPool, secondHolds, secondReceipt⟩ :=
      run_receipt reachable holds secondRun
    refine ⟨⟨firstPool, secondPool, firstHolds.present, secondHolds.present, ?_, ?_⟩, ?_⟩
    · have total := congrArg (fun receipt => receipt.epoch.totalAssets) firstReceipt
      rwa [Receipt.after_totalAssets] at total
    · have total := congrArg (fun receipt => receipt.epoch.totalAssets) secondReceipt
      rwa [Receipt.after_totalAssets] at total
    · intro n sameOrder
      rw [firstPaid, secondPaid, Receipt.payouts_take, Receipt.payouts_take, sameOrder]

/-- Bob's deposit between the settlement and the collection changes nothing for alice,
and the module could open an incident over the settled pool. -/
theorem smallDeployment_exits_isolated :
    ∃ w opened mod first second firstEnd secondEnd,
      Reachable SmallDeployment.platform w ∧
      w.openIncident SmallDeployment.module SmallDeployment.insuredToken 1001 Hash.zero =
        .ok opened ∧
      opened.modules SmallDeployment.module = some mod ∧
      (∀ p ∈ (mod.incidents (mod.nextIncidentId - 1)).pools, Caught p opened) ∧
      IsRun (step SmallDeployment.platform) w first firstEnd ∧
      IsRun (step SmallDeployment.platform) w second secondEnd ∧
      first.length = 1 ∧ second.length = 3 ∧
      (redemptions SmallDeployment.pool 1814400 second).length = 1 ∧
      (redemptions SmallDeployment.pool 1814400 first).take 1 =
        (redemptions SmallDeployment.pool 1814400 second).take 1 := by
  obtain ⟨steps, w, run, checked⟩ := SmallDeployment.reaches
    (SmallDeployment.stake ++ SmallDeployment.claim.take 12 ++ SmallDeployment.exit.take 2)
    (fun w => (w.openIncident SmallDeployment.module SmallDeployment.insuredToken 1001
        Hash.zero).isOk && (w.pools SmallDeployment.pool).any (fun pool =>
          pool.exitEpochQueue.take pool.nextExitEpochIndex == [1814400]) &&
      endsIn (step SmallDeployment.platform) w (SmallDeployment.exit.drop 2)
        (fun first _ => first.length == 1 &&
          (redemptions SmallDeployment.pool 1814400 first).map Prod.fst ==
            [SmallDeployment.alice]) &&
      endsIn (step SmallDeployment.platform) w
        ([.erc20Mint SmallDeployment.asset SmallDeployment.bob 50,
          .pool SmallDeployment.pool SmallDeployment.bob (.deposit 50 SmallDeployment.bob)] ++
          SmallDeployment.exit.drop 2)
        (fun second _ => second.length == 3 &&
          (redemptions SmallDeployment.pool 1814400 second).map Prod.fst ==
            [SmallDeployment.alice]))
    (by decide +kernel)
  simp only [Bool.and_eq_true] at checked
  obtain ⟨⟨⟨opens, settled⟩, firstPassed⟩, secondPassed⟩ := checked
  obtain ⟨pool, present, queue⟩ := (Option.any_eq_true _ _).mp settled
  obtain ⟨first, firstEnd, firstRun, firstUsers⟩ := endsIn_isRun _ _ firstPassed
  obtain ⟨second, secondEnd, secondRun, secondUsers⟩ := endsIn_isRun _ _ secondPassed
  simp only [Bool.and_eq_true, beq_iff_eq] at queue firstUsers secondUsers
  have isolated := matured_exits_isolated ⟨steps, run⟩
  cases opening : w.openIncident SmallDeployment.module SmallDeployment.insuredToken 1001
      Hash.zero with
  | error error =>
      rw [opening] at opens
      cases opens
  | ok opened =>
      obtain ⟨mod, modulePresent, caught⟩ := isolated.1 _ _ _ _ opened opening
      refine ⟨w, opened, mod, first, second, firstEnd, secondEnd, ⟨steps, run⟩, opening,
        modulePresent, caught, firstRun, secondRun, firstUsers.1, secondUsers.1, ?_, ?_⟩
      · rw [← List.length_map Prod.fst, secondUsers.2]
        rfl
      · refine (isolated.2 _ _ pool present ?_ first second firstEnd secondEnd firstRun
          secondRun).2 1 ?_
        · rw [queue]
          simp
        · rw [firstUsers.2, secondUsers.2]

end Isolation

end Usd8Core.Insurance
