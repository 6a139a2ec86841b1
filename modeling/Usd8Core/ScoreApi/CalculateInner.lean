import Usd8Core.Engine.IncidentAuthorization
import Usd8Core.Lib.DecimalText
import Usd8Core.Lib.Interleaving
import Usd8Core.Score.ScoreCore
import Usd8Core.ScoreApi.CheckpointTable

/-!
# Calculations that share the row of an account

`calculate_inner` reads the row, takes a lease, replays for as long as it takes, and saves:
four requests, with times of its own clock.  Any number of calculations run at once, each
may stop anywhere, and a request that was sent may take effect later.
-/

set_option autoImplicit false

namespace Usd8Core.ScoreApi

open Usd8Core.Engine (BlockAnchor)
open Usd8Core.Lib.CheckedCall
open Usd8Core.Lib.DecimalText
open Usd8Core.Lib.EventLog
open Usd8Core.Lib.Interleaving
open Usd8Core.Lib.Json (containsText toAsciiLowercase)
open Usd8Core.Score (ScoreCoreError)

/-! ## Errors and answers -/

inductive IncrementalScoreError where
  | malformed (field : String)
  | tokenMismatch
  | decimalsMismatch
  | rateHistoryMismatch
  | retroactiveRate
  | cursorRollback
  | invalidTransferOrder
  | core (error : ScoreCoreError)
  /-- An error that the provider returned. -/
  | jsonRpc (code : Int) (message : String)
  | chain (message : String)
  | wrongChain (actual expected : Nat)
  | zeroDefiInsurance
  | checkpointIdentity
  | checkpointBlockHash

inductive ScoreFailure where
  | text (message : String)
  | incremental (error : IncrementalScoreError)
  /-- An error of the clock, the table or the provider. -/
  | service (message : String)

structure WorkPolicy where
  leaseSeconds : Nat
  failureCooldownSeconds : Nat
  budgetWindowSeconds : Nat

def MAX_CHECKPOINT_BYTES : Nat := 128 * 1024

def DAILY_EPOCH_SECONDS : Nat := 24 * 60 * 60

def REFRESH_COOLDOWN_SECONDS : Nat := 5 * 60

def SCORE_SNAPSHOT_VERSION : Nat := 3

def completedUtcEpoch (finalizedTimestamp : Nat) : Option Nat :=
  let epoch := finalizedTimestamp / DAILY_EPOCH_SECONDS * DAILY_EPOCH_SECONDS
  if epoch ≥ DAILY_EPOCH_SECONDS then some epoch else none

def dailyCacheMaxAge (epoch now : Nat) : Nat := saturatingAdd epoch DAILY_EPOCH_SECONDS - now

def refreshThrottled (lastRefreshAt : Option Nat) (now : Nat) : Bool :=
  lastRefreshAt.any fun timestamp => now < saturatingAdd timestamp REFRESH_COOLDOWN_SECONDS

def staleCheckpoint : IncrementalScoreError → Bool
  | .malformed _ | .tokenMismatch | .decimalsMismatch | .rateHistoryMismatch | .retroactiveRate
  | .cursorRollback | .checkpointIdentity | .checkpointBlockHash => true
  | _ => false

def unavailableCheckpointHistory : IncrementalScoreError → Bool
  | .jsonRpc code message =>
      let lower := (toAsciiLowercase message.toList).toList
      code = -32000 && containsText "historical state".toList lower &&
        containsText "not available".toList lower
  | _ => false

/-! ## Requests -/

structure StoredCheckpoint (C S : Type) where
  checkpoint : C
  snapshot : Option (CachedInsuranceScoreSnapshot S)
  snapshotEpoch : Option Nat
  lastRefreshAt : Option Nat
  version : Nat

structure CalculatedScore (S : Type) where
  value : CachedInsuranceScoreSnapshot S
  cacheMaxAge : Nat

inductive ScoreOp (C : Type) where
  | clock
  | load
  | acquire (request : AcquireRequest)
  /-- The budget of all accounts in a window of time. -/
  | reserveBudget (window : Nat)
  | finalizedBlock
  | blockAtOrBeforeTimestamp (timestamp upperBound : Nat)
  | registryExistedAt (block : Nat)
  | blockByNumber (number : Nat)
  /-- `compute_incremental_score_at` -/
  | compute (reference : BlockAnchor) (previous : Option C)
  | save (request : SaveRequest)

abbrev Answer {C : Type} (S : Type) : ScoreOp C → Type
  | .clock => Nat
  | .load => Row
  | .acquire _ => Option Nat
  | .reserveBudget _ => Bool
  | .finalizedBlock => BlockAnchor
  | .blockAtOrBeforeTimestamp _ _ => Nat
  | .registryExistedAt _ => Bool
  | .blockByNumber _ => BlockAnchor
  | .compute _ _ => Except IncrementalScoreError (CachedInsuranceScoreSnapshot S × C)
  | .save _ => Bool

abbrev ScoreReply {C : Type} (S : Type) (op : ScoreOp C) : Type :=
  Except ScoreFailure (Answer S op)

abbrev ScoreProgram (C S α : Type) := Program (ScoreOp C) (ScoreReply S) ScoreFailure α

section Calculation

variable {C S : Type} (serde : PayloadSerde C S) (policy : WorkPolicy) (forceRefresh : Bool)

def call (op : ScoreOp C) : ScoreProgram C S (Answer S op) := do
  let reply ← Program.ask op
  .ofExcept reply

/-- What `load` makes of the row. -/
def storedOf (row : Row) : Except ScoreFailure (Option (StoredCheckpoint C S)) :=
  match row.payload with
  | none => pure none
  | some payload => do
      revertIf (payload.utf8ByteSize > MAX_CHECKPOINT_BYTES)
        (.text "checkpoint payload exceeds size limit")
      let version ← orRevert row.version (.text "checkpoint version missing")
      let persisted ← orRevert (decodeCheckpointPayload serde payload)
        (.service "checkpoint payload")
      pure (some ⟨persisted.checkpoint, persisted.snapshot, persisted.snapshotEpoch,
        row.lastRefreshAt, version⟩)

def load : ScoreProgram C S (Option (StoredCheckpoint C S)) := do
  let row ← call .load
  .ofExcept (storedOf serde row)

def deferredScore (stored : Option (StoredCheckpoint C S)) (status : String) :
    Except ScoreFailure (CalculatedScore S) :=
  match (stored.bind StoredCheckpoint.snapshot).filter
      (·.snapshotVersion = SCORE_SNAPSHOT_VERSION) with
  | some snapshot => pure ⟨{ snapshot with cacheStatus := status, logRequests := "0" }, 0⟩
  | none => .error (.text "score work deferred; retry later")

/-- The snapshot that answers without any work. -/
def currentSnapshot (stored : Option (StoredCheckpoint C S)) (epoch now : Nat) :
    Option (CachedInsuranceScoreSnapshot S) :=
  (stored.filter fun value => decide (value.snapshotEpoch = some epoch) &&
    decide ((value.snapshot.map CachedInsuranceScoreSnapshot.snapshotVersion).getD 0 =
      SCORE_SNAPSHOT_VERSION) &&
    (!forceRefresh || refreshThrottled value.lastRefreshAt now)).bind StoredCheckpoint.snapshot

def acquire (epoch : Nat) (expected : Option Nat) (now : Nat) : ScoreProgram C S (Option Nat) := do
  let lease ← call (.acquire
    { leaseUntil := now + policy.leaseSeconds
      retryAfter := now + policy.leaseSeconds + policy.failureCooldownSeconds
      now := now
      epoch := epoch
      expected := expected })
  match lease with
  | none => pure none
  | some generation => do
      .failIf (maxU64 < generation) (.service "lease generation")
      pure (some generation)

def referenceBlock (epoch : Nat) (finalized : BlockAnchor) : ScoreProgram C S BlockAnchor :=
  if forceRefresh then pure finalized
  else do
    let number ← call (.blockAtOrBeforeTimestamp (epoch - 1) finalized.number)
    let existed ← call (.registryExistedAt number)
    -- the day of the deployment has no block of the day before
    if existed then call (.blockByNumber number) else pure finalized

/-- From the stored checkpoint, or from nothing where that one is of no use any more. -/
def computeScore (stored : Option (StoredCheckpoint C S)) (reference : BlockAnchor) :
    ScoreProgram C S (CachedInsuranceScoreSnapshot S × C) := do
  let computed ← call (.compute reference (stored.map StoredCheckpoint.checkpoint))
  match computed with
  | .ok value => pure value
  | .error error =>
      if stored.isSome ∧ (staleCheckpoint error ∨ unavailableCheckpointHistory error) then do
        let cold ← call (.compute reference none)
        .ofExcept (cold.mapError .incremental)
      else .fail (.incremental error)

/-- `text.parse::<u64>()`, which takes a plus sign. -/
def parseU64 (text : String) : Option Nat :=
  let digits := if text.toList.head? = some '+' then text.toList.tail else text.toList
  if digits = [] ∨ digits.all isDigit = false then none
  else some (decimalValue digits) |>.filter (· ≤ maxU64)

def save (checkpoint : C) (snapshot : CachedInsuranceScoreSnapshot S)
    (epoch cursorBlock : Nat) (expected lastRefreshAt : Option Nat) (generation : Nat) :
    ScoreProgram C S Bool := do
  let payload := serde.text ⟨checkpoint, some snapshot, some epoch⟩
  .failIf (payload.utf8ByteSize > MAX_CHECKPOINT_BYTES)
    (.text "checkpoint payload exceeds size limit")
  .failIf (maxU64 < expected.getD 0 + 1) (.text "checkpoint version overflow")
  let now ← call .clock
  call (.save
    { payload := payload
      version := expected.getD 0 + 1
      cursor := cursorBlock
      epoch := epoch
      generation := generation
      now := now
      expected := expected
      refresh := lastRefreshAt })

/-- A rejected save does not return what it computed. -/
def saveScore (now epoch generation : Nat) (stored : Option (StoredCheckpoint C S))
    (snapshot : CachedInsuranceScoreSnapshot S) (checkpoint : C) :
    ScoreProgram C S (CalculatedScore S) := do
  let cursorBlock ← .ofExcept (orRevert (parseU64 snapshot.referenceBlock)
    (.service "reference block"))
  let saved ← save serde checkpoint snapshot epoch cursorBlock (stored.map StoredCheckpoint.version)
    (if forceRefresh then some now else none) generation
  if saved then
    pure ⟨snapshot, if forceRefresh then 0 else dailyCacheMaxAge epoch now⟩
  else do
    let latest ← load serde
    .ofExcept (deferredScore latest "updating")

/-- All that is done under a lease. -/
def calculateLeased (now epoch generation : Nat) (stored : Option (StoredCheckpoint C S)) :
    ScoreProgram C S (CalculatedScore S) := do
  let budgetNow ← call .clock
  let reserved ← call (.reserveBudget (budgetNow / policy.budgetWindowSeconds))
  if reserved = false then .ofExcept (deferredScore stored "work-throttled")
  else do
    let finalized ← call .finalizedBlock
    if completedUtcEpoch finalized.timestamp ≠ some epoch then
      .ofExcept (deferredScore stored "updating")
    else do
      let reference ← referenceBlock forceRefresh epoch finalized
      let (snapshot, checkpoint) ← computeScore stored reference
      saveScore serde forceRefresh now epoch generation stored snapshot checkpoint

def calculateInner : ScoreProgram C S (CalculatedScore S) := do
  let now ← call .clock
  let epoch ← .ofExcept (orRevert (completedUtcEpoch now)
    (.text "score clock predates first UTC day"))
  let stored ← load serde
  match currentSnapshot forceRefresh stored epoch now with
  | some snapshot =>
      let status := if forceRefresh then "refresh-throttled" else "daily-hit"
      pure ⟨{ snapshot with cacheStatus := status, logRequests := "0" },
        if forceRefresh then 0 else dailyCacheMaxAge epoch now⟩
  | none => do
      let lease ← acquire policy epoch (stored.map StoredCheckpoint.version) now
      match lease with
      | some generation => calculateLeased serde policy forceRefresh now epoch generation stored
      | none => do
          let latest ← load serde
          .ofExcept (deferredScore latest "updating")

end Calculation

/-! ## How requests are served -/

section Machine

variable {C S : Type}

/-- A write that was sent takes effect, if its condition holds. -/
inductive Delivers (log : TableLog C S) : TableLog C S → Prop
  | acquired (request : AcquireRequest) (sent : .sent (.acquire request) ∈ log)
      (admits : (rowOf log).admits request) :
      Delivers log (log ++ [.acquired request ((rowOf log).generation.getD 0 + 1)])
  | saved (request : SaveRequest) (sent : .sent (.save request) ∈ log)
      (accepts : (rowOf log).accepts request) : Delivers log (log ++ [.saved request])

/-- Reads are consistent.  The provider, the clock and the budget may answer anything, and a
write whose success was not reported may still be on its way. -/
inductive Serves : TableLog C S → (op : ScoreOp C) → ScoreReply S op → TableLog C S → Prop
  | failed (log : TableLog C S) (op : ScoreOp C) (failure : ScoreFailure) :
      Serves log op (.error failure) log
  | clock (log : TableLog C S) (now : Nat) : Serves log .clock (.ok now) log
  | loaded (log : TableLog C S) : Serves log .load (.ok (rowOf log)) log
  | budget (log : TableLog C S) (window : Nat) (reserved : Bool) :
      Serves log (.reserveBudget window) (.ok reserved) log
  | finalized (log : TableLog C S) (block : BlockAnchor) : Serves log .finalizedBlock (.ok block) log
  | found (log : TableLog C S) (timestamp upperBound number : Nat) :
      Serves log (.blockAtOrBeforeTimestamp timestamp upperBound) (.ok number) log
  | existed (log : TableLog C S) (block : Nat) (there : Bool) :
      Serves log (.registryExistedAt block) (.ok there) log
  | block (log : TableLog C S) (number : Nat) (block : BlockAnchor) :
      Serves log (.blockByNumber number) (.ok block) log
  | computed (log : TableLog C S) (reference : BlockAnchor) (previous : Option C)
      (snapshot : CachedInsuranceScoreSnapshot S) (checkpoint : C) :
      Serves log (.compute reference previous) (.ok (.ok (snapshot, checkpoint)))
        (log ++ [.computed ⟨previous, snapshot, checkpoint⟩])
  | notComputed (log : TableLog C S) (reference : BlockAnchor) (previous : Option C)
      (error : IncrementalScoreError) :
      Serves log (.compute reference previous) (.ok (.error error)) log
  | acquired (log : TableLog C S) (request : AcquireRequest)
      (admits : (rowOf log).admits request) :
      Serves log (.acquire request) (.ok (some ((rowOf log).generation.getD 0 + 1)))
        (log ++ [.sent (.acquire request)] ++
          [.acquired request ((rowOf log).generation.getD 0 + 1)])
  | notAcquired (log : TableLog C S) (request : AcquireRequest)
      (reply : ScoreReply S (.acquire request : ScoreOp C))
      (unreported : ∀ generation, reply ≠ .ok (some generation)) :
      Serves log (.acquire request) reply (log ++ [.sent (.acquire request)])
  | saved (log : TableLog C S) (request : SaveRequest) (accepts : (rowOf log).accepts request) :
      Serves log (.save request) (.ok true)
        (log ++ [.sent (.save request)] ++ [.saved request])
  | notSaved (log : TableLog C S) (request : SaveRequest)
      (reply : ScoreReply S (.save request : ScoreOp C)) (unreported : reply ≠ .ok true) :
      Serves log (.save request) reply (log ++ [.sent (.save request)])

/-- Calculations of one account, with or without a forced refresh, started at any time. -/
def scoreMachine (serde : PayloadSerde C S) (policy : WorkPolicy) :
    Machine (TableLog C S) Bool (ScoreOp C) (ScoreReply S) ScoreFailure (CalculatedScore S) where
  serve _ := Serves
  drift := Delivers
  starts _ forceRefresh program := program = calculateInner serde policy forceRefresh

def tableRely (serde : PayloadSerde C S) : Rely (TableLog C S) Bool where
  valid := TableLegal serde
  others _ := (· <+: ·)
  grows _ := (· <+: ·)
  idle _ _ := True
  refl _ _ := List.prefix_rfl
  trans := List.IsPrefix.trans
  grows_of_others := id
  grows_trans := List.IsPrefix.trans
  idle_of_others _ _ := trivial

end Machine

end Usd8Core.ScoreApi
