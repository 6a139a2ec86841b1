import Usd8Core.Lib.ArrayShift
import Usd8Core.Treasury.WithdrawalQueue

/-!
# Editing the strategy queue

`addStrategy` and `removeStrategy` as they move the entries of the array, one write at a
time.  They insert and delete one entry, and no sequence of them lists a strategy twice, so
the reserve counts each strategy once.
-/

set_option autoImplicit false

namespace Usd8Core.Treasury

open Finset
open Usd8Core.Lib.ArrayShift
open Usd8Core.Lib.ByteWords
open Usd8Core.Lib.CheckedCall
open Usd8Core.Chain

/-! ## The calls -/

/-- The storage that the edits touch. -/
structure StrategyQueue where
  strategies : List Address
  events : List TreasuryEvent

namespace StrategyQueue

def empty : StrategyQueue := ⟨[], []⟩

/-- The loop of `_findStrategy`, with the index it has come to. -/
def findFrom (strategy : Address) : List Address → Nat → Nat × Bool
  | [], _ => (0, false)
  | listed :: later, i =>
      if listed = strategy then (i, true) else findFrom strategy later (i + 1)

def findStrategy (queue : StrategyQueue) (strategy : Address) : Nat × Bool :=
  findFrom strategy queue.strategies 0

def findApprovedStrategy (queue : StrategyQueue) (strategy : Address) : TreasuryCall Nat := do
  let (index, found) := queue.findStrategy strategy
  revertIf (found = false) (.strategyNotApproved strategy)
  pure index

def requireTimelock (registry : Registry) (sender : Address) : TreasuryCall Unit :=
  revertIf (sender ≠ registry.timelock) (.registry (.unauthorizedTimelock sender))

def addStrategy (registry : Registry) (queue : StrategyQueue) (sender strategy : Address)
    (index : Nat) : TreasuryCall StrategyQueue := do
  requireTimelock registry sender
  revertIf (strategy = Address.zero) .zeroAddress
  revertIf ((queue.findStrategy strategy).2 = true) (.strategyAlreadyApproved strategy)
  let n := queue.strategies.length
  let index := if index > n then n else index
  let strategies ← insertAt queue.strategies index strategy
  pure ⟨strategies, queue.events ++ [.strategyAdded strategy]⟩

def removeStrategy (registry : Registry) (queue : StrategyQueue) (sender strategy : Address) :
    TreasuryCall StrategyQueue := do
  requireTimelock registry sender
  let index ← queue.findApprovedStrategy strategy
  let strategies ← removeAt queue.strategies index
  pure ⟨strategies, queue.events ++ [.strategyRemoved strategy]⟩

/-! ## What the loops compute -/

section Loops

variable {registry : Registry} {queue next : StrategyQueue} {sender strategy : Address}
  {index : Nat}

theorem findFrom_eq (strategy : Address) (strategies : List Address) (i : Nat) :
    findFrom strategy strategies i =
      if strategy ∈ strategies then (i + strategies.idxOf strategy, true) else (0, false) := by
  induction strategies generalizing i with
  | nil => simp [findFrom]
  | cons listed later ih =>
      by_cases here : listed = strategy
      · simp [findFrom, here]
      · rw [findFrom, if_neg here, ih, List.idxOf_cons_ne _ here]
        by_cases inLater : strategy ∈ later
        · rw [if_pos inLater, if_pos (List.mem_cons_of_mem _ inLater)]
          congr 1
          omega
        · rw [if_neg inLater, if_neg (by simp [inLater, Ne.symm here])]

theorem findStrategy_eq (queue : StrategyQueue) (strategy : Address) :
    queue.findStrategy strategy =
      if strategy ∈ queue.strategies then (queue.strategies.idxOf strategy, true)
      else (0, false) := by
  simp [findStrategy, findFrom_eq]

theorem findApprovedStrategy_ok_iff :
    queue.findApprovedStrategy strategy = .ok index ↔
      strategy ∈ queue.strategies ∧ index = queue.strategies.idxOf strategy := by
  by_cases listed : strategy ∈ queue.strategies
  · simp [findApprovedStrategy, findStrategy_eq, listed, revertIf, Bind.bind, Except.bind, pure,
      Except.pure, eq_comm]
  · simp [findApprovedStrategy, findStrategy_eq, listed, revertIf, Bind.bind, Except.bind]

theorem insertIdx_eq (strategies : List Address) (strategy : Address)
    (inside : index ≤ strategies.length) :
    strategies.insertIdx index strategy =
      strategies.take index ++ strategy :: strategies.drop index := by
  induction strategies generalizing index with
  | nil =>
      obtain rfl : index = 0 := by simpa using inside
      rfl
  | cons listed later ih =>
      cases index with
      | zero => rfl
      | succ before =>
          simp only [List.insertIdx_succ_cons, List.take_succ_cons, List.drop_succ_cons,
            List.cons_append, ih (Nat.le_of_succ_le_succ inside)]

/-- A strategy goes in at its index, or at the end; the others keep their order. -/
theorem addStrategy_ok_iff :
    addStrategy registry queue sender strategy index = .ok next ↔
      sender = registry.timelock ∧ strategy ≠ Address.zero ∧ strategy ∉ queue.strategies ∧
        next = ⟨queue.strategies.take (min index queue.strategies.length) ++
          strategy :: queue.strategies.drop (min index queue.strategies.length),
          queue.events ++ [.strategyAdded strategy]⟩ := by
  have clamp : (if index > queue.strategies.length then queue.strategies.length else index) =
      min index queue.strategies.length := by
    split <;> omega
  have inserted : (insertAt queue.strategies (min index queue.strategies.length) strategy :
      TreasuryCall (List Address)) = .ok _ :=
    (insertAt_eq queue.strategies (Nat.min_le_right _ _) strategy).trans
      (congrArg _ (insertIdx_eq queue.strategies strategy (Nat.min_le_right _ _)))
  have listed : (queue.findStrategy strategy).2 = true ↔ strategy ∈ queue.strategies := by
    rw [findStrategy_eq]
    split <;> simp [*]
  simp only [addStrategy, requireTimelock, clamp, bind_ok_iff, revertIf_ok_iff, inserted,
    pure_ok_iff, listed, not_not, ne_eq, exists_and_left, exists_const, Except.ok.injEq,
    exists_eq_left']
  simp only [eq_comm]

/-- Exactly the strategy goes out, and the others keep their order. -/
theorem removeStrategy_ok_iff :
    removeStrategy registry queue sender strategy = .ok next ↔
      sender = registry.timelock ∧ strategy ∈ queue.strategies ∧
        next = ⟨queue.strategies.erase strategy, queue.events ++ [.strategyRemoved strategy]⟩ := by
  simp only [removeStrategy, requireTimelock, bind_ok_iff, revertIf_ok_iff, pure_ok_iff, not_not,
    ne_eq, findApprovedStrategy_ok_iff, exists_const]
  refine and_congr_right fun _ => ?_
  constructor
  · rintro ⟨index, ⟨listed, rfl⟩, strategies, removed, rfl⟩
    have erased := removeAt_eq (ε := TreasuryError) queue.strategies (List.idxOf_lt_length_iff.mpr listed)
    cases removed.symm.trans erased
    exact ⟨listed, by rw [← List.erase_eq_eraseIdx_of_idxOf rfl]⟩
  · rintro ⟨listed, rfl⟩
    refine ⟨_, ⟨listed, rfl⟩, _, removeAt_eq _ (List.idxOf_lt_length_iff.mpr listed), ?_⟩
    rw [← List.erase_eq_eraseIdx_of_idxOf rfl]

end Loops

/-! ## Sequences of edits -/

inductive QueueEdit where
  | addStrategy (strategy : Address) (index : Nat)
  | removeStrategy (strategy : Address)
  deriving DecidableEq

/-- A call, and the Registry as it is then. -/
structure QueueCall where
  registry : Registry
  sender : Address
  edit : QueueEdit

def edited (queue : StrategyQueue) (call : QueueCall) : TreasuryCall StrategyQueue :=
  match call.edit with
  | .addStrategy strategy index => addStrategy call.registry queue call.sender strategy index
  | .removeStrategy strategy => removeStrategy call.registry queue call.sender strategy

/-- A call that reverts writes nothing. -/
def afterCall (queue : StrategyQueue) (call : QueueCall) : StrategyQueue :=
  match queue.edited call with
  | .ok next => next
  | .error _ => queue

def afterCalls (calls : List QueueCall) : StrategyQueue := calls.foldl afterCall empty

/-- No strategy is listed twice, and none is the zero address. -/
structure WellFormed (queue : StrategyQueue) : Prop where
  distinct : queue.strategies.Nodup
  nonzero : Address.zero ∉ queue.strategies

theorem WellFormed.edited {queue next : StrategyQueue} {call : QueueCall}
    (formed : WellFormed queue) (ran : queue.edited call = .ok next) : WellFormed next := by
  unfold StrategyQueue.edited at ran
  cases edit : call.edit with
  | addStrategy strategy index =>
      simp only [edit] at ran
      obtain ⟨-, nonzero, fresh, rfl⟩ := addStrategy_ok_iff.mp ran
      constructor
      · exact TreasuryState.insert_distinct _ _ _ formed.distinct fresh
      · have others := formed.nonzero
        rw [← List.take_append_drop (min index queue.strategies.length) queue.strategies] at others
        simp only [List.mem_append, List.mem_cons, not_or] at others ⊢
        exact ⟨others.1, Ne.symm nonzero, others.2⟩
  | removeStrategy strategy =>
      simp only [edit] at ran
      obtain ⟨-, -, rfl⟩ := removeStrategy_ok_iff.mp ran
      exact ⟨formed.distinct.erase _, fun member => formed.nonzero (List.mem_of_mem_erase member)⟩

theorem afterCalls_wellFormed (calls : List QueueCall) : WellFormed (afterCalls calls) := by
  have kept (queue : StrategyQueue) (formed : WellFormed queue) :
      WellFormed (calls.foldl afterCall queue) := by
    induction calls generalizing queue with
    | nil => exact formed
    | cons call later ih =>
        apply ih
        unfold afterCall
        cases ran : queue.edited call with
        | ok next => exact formed.edited ran
        | error error => exact formed
  exact kept empty ⟨.nil, by simp [empty]⟩

/-! ## The Treasury's own calls -/

section Refinement

variable {σ : Type}

def ofTreasury (t : TreasuryState σ) : StrategyQueue := ⟨t.strategies, t.events⟩

/-- The calls of the Treasury on a queue of distinct strategies are these. -/
theorem addStrategy_refines {t next : TreasuryState σ} {sender strategy : Address} {index : Nat}
    (ran : t.addStrategy sender strategy index = .ok next) :
    addStrategy t.registry (ofTreasury t) sender strategy index = .ok (ofTreasury next) := by
  rw [addStrategy_ok_iff]
  unfold TreasuryState.addStrategy at ran
  split at ran
  next => cases ran
  next isTimelock =>
    split at ran
    next => cases ran
    next nonzero =>
      split at ran
      next => cases ran
      next fresh =>
        cases ran
        refine ⟨not_not.mp isTimelock, nonzero, fresh, ?_⟩
        have takes : t.strategies.take (min index t.strategies.length) = t.strategies.take index := by
          rw [List.take_eq_take_iff]
          omega
        have drops : t.strategies.drop (min index t.strategies.length) = t.strategies.drop index := by
          rw [List.drop_eq_drop_iff]
          omega
        simp only [ofTreasury, TreasuryState.emit, takes, drops]

theorem removeStrategy_refines {t next : TreasuryState σ} {sender strategy : Address}
    (ran : t.removeStrategy sender strategy = .ok next) :
    removeStrategy t.registry (ofTreasury t) sender strategy = .ok (ofTreasury next) := by
  obtain ⟨_, isTimelock, ran⟩ := (bind_ok_iff _ _ _).mp ran
  obtain ⟨_, listed, ran⟩ := (bind_ok_iff _ _ _).mp ran
  cases (pure_ok_iff _ _).mp ran
  rw [removeStrategy_ok_iff]
  refine ⟨not_not.mp ((revertIf_ok_iff _ _ _).mp isTimelock),
    not_not.mp ((revertIf_ok_iff _ _ _).mp listed), ?_⟩
  simp only [ofTreasury, TreasuryState.emit, ← List.erase_eq_eraseIdx_of_idxOf rfl]

end Refinement

/-! ## Every sequence of edits -/

/-- The reserve is the idle USDC and each approved strategy once. -/
def CountsOnce (queue : StrategyQueue) : Prop :=
  ∀ (σ : Type) (contracts : ExternalContracts σ) (self : Address) (t : TreasuryState σ)
    (value : Address → Nat), t.strategies = queue.strategies →
    Reports contracts t.strategies t.external value →
    contracts.usdcBalance t.external self < uintBound 256 →
    t.getReserveBalance contracts self =
      if contracts.usdcBalance t.external self + ∑ strategy ∈ queue.strategies.toFinset,
          value strategy < uintBound 256 then
        .ok (contracts.usdcBalance t.external self +
          ∑ strategy ∈ queue.strategies.toFinset, value strategy)
      else .error (.panic .overflow)

theorem WellFormed.countsOnce {queue : StrategyQueue} (formed : WellFormed queue) :
    CountsOnce queue := by
  intro σ contracts self t value same reports inWord
  rw [List.sum_toFinset value formed.distinct, ← same]
  exact reserveLoop_eq reports _ (.inr inWord)

/-- What the edits of a queue do, and what they leave alone. -/
structure EditsOnce (queue : StrategyQueue) : Prop extends WellFormed queue where
  added : ∀ registry sender strategy index next,
    addStrategy registry queue sender strategy index = .ok next ↔
      sender = registry.timelock ∧ strategy ≠ Address.zero ∧ strategy ∉ queue.strategies ∧
        next = ⟨queue.strategies.take (min index queue.strategies.length) ++
          strategy :: queue.strategies.drop (min index queue.strategies.length),
          queue.events ++ [.strategyAdded strategy]⟩
  removed : ∀ registry sender strategy next,
    removeStrategy registry queue sender strategy = .ok next ↔
      sender = registry.timelock ∧ strategy ∈ queue.strategies ∧
        next = ⟨queue.strategies.erase strategy, queue.events ++ [.strategyRemoved strategy]⟩
  refused : ∀ call error, queue.edited call = .error error → queue.afterCall call = queue
  counted : CountsOnce queue

theorem strategy_queue_edits (calls : List QueueCall) : EditsOnce (afterCalls calls) where
  toWellFormed := afterCalls_wellFormed calls
  added _ _ _ _ _ := addStrategy_ok_iff
  removed _ _ _ _ := removeStrategy_ok_iff
  refused call error failed := by rw [afterCall, failed]
  counted := (afterCalls_wellFormed calls).countsOnce

end StrategyQueue

end Usd8Core.Treasury
