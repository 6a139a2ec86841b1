import Usd8Core.Engine.TokenHistories
import Usd8Core.Score.ResumedStates

/-!
# Operations that follow a book

A replay makes operations of the logs of a token, each for one account.  Whatever it leaves out
or takes apart, the balances are those of the token's book as long as the operations of each log
do to the account what the log does.
-/

set_option autoImplicit false

namespace Usd8Core.Engine

open Usd8Core.Lib.BalanceHistory
open Usd8Core.Lib.ByteWords (Address)
open Usd8Core.Score (ScoreOp Timely balanceAt)

/-- The operations of each log do to the account what the moves of the log do. -/
structure Mirrors (ledger : TokenLedger) (account : Address) (opsOf : RpcLog → List ScoreOp) :
    Prop where
  placed : ∀ log, ∀ op ∈ opsOf log, op.block = log.blockNumber
  credits : ∀ log book, Covered .zero book (ledger.moves log) →
    (opsOf log).foldl ScoreOp.credit (book account) =
      applyMoves .zero book (ledger.moves log) account

/-- The operations of the logs of a window. -/
def windowOps (ledger : TokenLedger) (chain : LogChain) (opsOf : RpcLog → List ScoreOp)
    (fromBlock toBlock : Nat) : List ScoreOp :=
  (chain.between ledger.emits fromBlock (toBlock + 1 - fromBlock)).flatMap opsOf

/-- What comes in and goes out with a log, for the logs that are counted. -/
def netOps (ledger : TokenLedger) (account : Address) (counted : RpcLog → Bool) (log : RpcLog) :
    List ScoreOp :=
  if counted log then
    [.transfer log.blockNumber (inflow account (ledger.moves log))
      (outflow account (ledger.moves log))]
  else []

theorem timely_of_pairwise {ops : List ScoreOp} {last : Nat} (late : ∀ op ∈ ops, last ≤ op.block)
    (ordered : ops.Pairwise fun first second => first.block ≤ second.block) : Timely last ops := by
  induction ops generalizing last with
  | nil => trivial
  | cons op rest ih =>
      obtain ⟨head, tail⟩ := List.pairwise_cons.mp ordered
      exact ⟨late op List.mem_cons_self, ih head tail⟩

section Books

variable {ledger : TokenLedger} {chain : LogChain} {account : Address}
  {opsOf : RpcLog → List ScoreOp} {start block toBlock : Nat}

theorem Mirrors.credit_all (mirrors : Mirrors ledger account opsOf) (logs : List RpcLog)
    (book : Address → Nat) (wellFormed : WellFormed .zero ledger.moves book logs) :
    (logs.flatMap opsOf).foldl ScoreOp.credit (book account) =
      bookAfter .zero ledger.moves book logs account := by
  induction logs generalizing book with
  | nil => rfl
  | cons log rest ih =>
      obtain ⟨covered, later⟩ := wellFormed_cons_iff.mp wellFormed
      rw [List.flatMap_cons, List.foldl_append, mirrors.credits log book covered, ih _ later]
      rfl

theorem mem_windowOps (mirrors : Mirrors ledger account opsOf) {fromBlock : Nat} {op : ScoreOp}
    (member : op ∈ windowOps ledger chain opsOf fromBlock toBlock) :
    fromBlock ≤ op.block ∧ op.block ≤ toBlock := by
  obtain ⟨log, isLog, isOp⟩ := List.mem_flatMap.mp member
  have inside := (LogChain.mem_between.mp isLog).2.2
  rw [mirrors.placed log op isOp]
  omega

/-- On a chain in order the operations of a window do not go back in time. -/
theorem windowOps_timely (mirrors : Mirrors ledger account opsOf) (ordered : chain.Ordered) :
    Timely start (windowOps ledger chain opsOf (start + 1) toBlock) := by
  apply timely_of_pairwise
  · intro op member
    have after := (mem_windowOps mirrors member).1
    omega
  · rw [windowOps, List.pairwise_flatMap]
    constructor
    · intro log _
      refine List.pairwise_of_forall_mem_list fun first isFirst second isSecond => ?_
      rw [mirrors.placed log first isFirst, mirrors.placed log second isSecond]
    · refine (LogChain.between_pairwise ordered _ _).imp ?_
      intro earlier later before first isFirst second isSecond
      rw [mirrors.placed earlier first isFirst, mirrors.placed later second isSecond]
      exact before.elim Nat.le_of_lt fun same => same.1.le

/-- Netted, the logs that change the account do to it what they do. -/
theorem netOps_mirrors (kept : account ≠ .zero) (counted : RpcLog → Bool)
    (uncounted : ∀ log, counted log = false →
      inflow account (ledger.moves log) = outflow account (ledger.moves log)) :
    Mirrors ledger account (netOps ledger account counted) where
  placed log op member := by
    unfold netOps at member
    split at member
    · rw [List.mem_singleton.mp member]
      rfl
    · cases member
  credits log book covered := by
    have flow := applyMoves_flow kept (ledger.moves log) book covered
    unfold netOps
    split
    next => simp only [List.foldl_cons, List.foldl_nil, ScoreOp.credit]; omega
    next passed =>
      have level := uncounted log (Bool.not_eq_true _ ▸ passed)
      rw [List.foldl_nil]
      omega

theorem windowOps_split {fromBlock middle : Nat} (first : fromBlock ≤ middle + 1)
    (second : middle ≤ toBlock) : windowOps ledger chain opsOf fromBlock toBlock =
      windowOps ledger chain opsOf fromBlock middle ++
        windowOps ledger chain opsOf (middle + 1) toBlock := by
  have counts : toBlock + 1 - fromBlock = (middle + 1 - fromBlock) + (toBlock + 1 - (middle + 1)) := by
    omega
  have next : fromBlock + (middle + 1 - fromBlock) = middle + 1 := by omega
  rw [windowOps, counts, LogChain.between_append, List.flatMap_append, next]
  rfl

/-- From the balance at one block the operations go through the balances at all later ones. -/
theorem Mirrors.balanceAt_eq (mirrors : Mirrors ledger account opsOf) (valid : ledger.Valid chain)
    (begun : start ≤ block) (inside : block ≤ toBlock) :
    balanceAt (ledger.bookAt chain start account)
        (windowOps ledger chain opsOf (start + 1) toBlock) block =
      ledger.bookAt chain block account := by
  have reached : (windowOps ledger chain opsOf (start + 1) toBlock).filter
      (fun op => op.block ≤ block) = windowOps ledger chain opsOf (start + 1) block := by
    rw [windowOps_split (by omega : start + 1 ≤ block + 1) inside, List.filter_append,
      List.filter_eq_self.mpr fun op member => decide_eq_true (mem_windowOps mirrors member).2]
    rw [List.filter_eq_nil_iff.mpr, List.append_nil]
    intro op member
    have late := (mem_windowOps mirrors member).1
    simp
    omega
  have count : block + 1 - (start + 1) = block - start := by omega
  have split : chain.between ledger.emits 0 (block + 1) =
      chain.between ledger.emits 0 (start + 1) ++
        chain.between ledger.emits (start + 1) (block - start) := TokenLedger.bookAt_split begun
  have history := valid.covered (block + 1)
  rw [split] at history
  have window : WellFormed .zero ledger.moves (ledger.bookAt chain start)
      (chain.between ledger.emits (start + 1) (block - start)) := history.append
  have whole : ledger.bookAt chain block = bookAfter .zero ledger.moves
      (ledger.bookAt chain start) (chain.between ledger.emits (start + 1) (block - start)) := by
    rw [TokenLedger.bookAt, split, bookAfter_append]
    rfl
  rw [balanceAt, reached, windowOps, count, mirrors.credit_all _ _ window, whole]

end Books

end Usd8Core.Engine
