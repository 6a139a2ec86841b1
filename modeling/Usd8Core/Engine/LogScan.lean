import Usd8Core.Engine.Rpc
import Mathlib.Data.List.Sort

/-!
# Scanning a block range for logs

`get_logs_chunked`: chunks of the range, and in each a stack of ranges that are cut
in two where the provider refuses one or may have left something out.  A single
block is read from its receipts instead.  Both loops run on fuel.
-/

set_option autoImplicit false

namespace Usd8Core.Engine

open Usd8Core.Lib.CheckedCall
open Usd8Core.Lib.Json
open Usd8Core.Lib.OracleCall

def MAX_RPC_RETRIES : Nat := 8
def MAX_INITIAL_LOG_RANGE : Nat := 5000
def MAX_LOG_RESULT_CAP : Nat := 1000
def MAX_LOG_REQUESTS_PER_CHUNK : Nat := 4096
def MAX_LOG_BISECTIONS_PER_CHUNK : Nat := 2048
def MAX_LOG_TRANSPORT_ATTEMPTS_PER_CHUNK : Nat :=
  MAX_LOG_REQUESTS_PER_CHUNK * (MAX_RPC_RETRIES + 1)

/-- Five minutes in nanoseconds. -/
def MAX_LOG_CHUNK_DURATION : Nat := 300 * 10 ^ 9

structure LogMetrics where
  requests : Nat
  bisections : Nat
  errors : Nat
  elapsedMs : Nat
  deriving DecidableEq

def LogMetrics.default : LogMetrics := ⟨0, 0, 0, 0⟩

/-- `+=` on a `u64`, which wraps in a release build. -/
def wrappingAdd (value more : Nat) : Nat := (value + more) % 2 ^ 64

def rangeLimitTexts : List String :=
  ["block range", "range too large", "range is too large", "range too wide",
    "range is too wide", "too many results", "result size", "results size", "result set size",
    "result limit", "results limit", "response size", "response too large"]

def rangeLimited (error : RpcError) : Bool :=
  match error with
  | .responseTooLarge _ _ => true
  | .jsonRpc _ message => rangeLimitTexts.any fun needle =>
      containsText needle.toList (message.toList.map Char.toLower)
  | _ => false

/-- What the inner loop of a chunk keeps; the top of the stack comes first. -/
structure Chunk where
  requests : Nat
  bisections : Nat
  metrics : LogMetrics
  pending : List (Nat × Nat)
  output : List RpcLog

def Chunk.counted (chunk : Chunk) (requests : Nat) : Chunk :=
  { chunk with
    requests := chunk.requests + requests
    metrics := { chunk.metrics with requests := wrappingAdd chunk.metrics.requests requests } }

def Chunk.failed (chunk : Chunk) : Chunk :=
  { chunk with metrics := { chunk.metrics with errors := wrappingAdd chunk.metrics.errors 1 } }

def Chunk.extended (chunk : Chunk) (logs : List RpcLog) : Chunk :=
  { chunk with output := chunk.output ++ logs }

def Chunk.bisected (chunk : Chunk) (fromBlock toBlock : Nat) : Chunk :=
  let middle := fromBlock + (toBlock - fromBlock) / 2
  { chunk with
    bisections := chunk.bisections + 1
    metrics := { chunk.metrics with bisections := wrappingAdd chunk.metrics.bisections 1 }
    pending := (fromBlock, middle) :: (middle + 1, toBlock) :: chunk.pending }

section Scan

variable {σ : Type} (client : RpcClient σ)

def refuseIf (condition : Prop) [Decidable condition] (error : RpcError) : Scan σ Unit :=
  ofRpc (revertIf condition error)

/-- `MAX_LOG_CHUNK_DURATION.checked_sub(chunk_started.elapsed())` -/
def RpcClient.remaining (chunkStarted : Nat) : Scan σ Nat := do
  let now ← client.clock
  refuseIf (MAX_LOG_CHUNK_DURATION < now - chunkStarted) (.logBudgetExceeded "deadline")
  pure (MAX_LOG_CHUNK_DURATION - (now - chunkStarted))

/-- The two requests of a block's receipts, within the budget of the chunk. -/
def scanBlock (filter : LogFilter) (chunkStarted : Nat) (chunk : Chunk) (block : Nat) :
    Scan σ (Chunk × List RpcLog) := do
  refuseIf (chunk.requests + 2 > MAX_LOG_REQUESTS_PER_CHUNK) (.logBudgetExceeded "logical-request")
  let remaining ← client.remaining chunkStarted
  let fetched ← client.within remaining (fetchBlockReceiptLogs client filter block)
  let receiptLogs ← ofRpc fetched
  pure (chunk.counted 2, receiptLogs)

def bisect (chunk : Chunk) (fromBlock toBlock : Nat) : Scan σ Chunk := do
  refuseIf (chunk.bisections ≥ MAX_LOG_BISECTIONS_PER_CHUNK) (.logBudgetExceeded "bisection")
  pure (chunk.bisected fromBlock toBlock)

/-- One round of the inner loop, for the range that was on top of the stack. -/
def scanRange (filter : LogFilter) (resultCap chunkStarted attemptsStarted : Nat) (chunk : Chunk)
    (fromBlock toBlock : Nat) : Scan σ Chunk := do
  refuseIf (chunk.requests ≥ MAX_LOG_REQUESTS_PER_CHUNK) (.logBudgetExceeded "logical-request")
  let remaining ← client.remaining chunkStarted
  let attempts ← client.attempts
  refuseIf (attempts - attemptsStarted ≥ MAX_LOG_TRANSPORT_ATTEMPTS_PER_CHUNK)
    (.logBudgetExceeded "transport-attempt")
  let chunk := chunk.counted 1
  let fetched ← client.within remaining (fetchLogs client filter fromBlock toBlock)
  let attempts ← client.attempts
  refuseIf (attempts - attemptsStarted > MAX_LOG_TRANSPORT_ATTEMPTS_PER_CHUNK)
    (.logBudgetExceeded "transport-attempt")
  match fetched with
  | .error error =>
      let chunk := chunk.failed
      if rangeLimited error ∧ fromBlock = toBlock then do
        let (chunk, receiptLogs) ← scanBlock client filter chunkStarted chunk fromBlock
        pure (chunk.extended receiptLogs)
      else if rangeLimited error ∧ fromBlock < toBlock then bisect chunk fromBlock toBlock
      else failWith error
  | .ok logs =>
      if logs.length ≥ resultCap then
        if fromBlock = toBlock then do
          let (chunk, receiptLogs) ← scanBlock client filter chunkStarted chunk fromBlock
          let attempts ← client.attempts
          refuseIf (attempts - attemptsStarted > MAX_LOG_TRANSPORT_ATTEMPTS_PER_CHUNK)
            (.logBudgetExceeded "transport-attempt")
          pure (chunk.extended receiptLogs)
        else bisect chunk fromBlock toBlock
      else pure (chunk.extended logs)

/-- `while let Some((from, to)) = pending.pop()` -/
def scanPending (filter : LogFilter) (resultCap chunkStarted attemptsStarted : Nat) :
    Nat → Chunk → Scan σ Chunk
  | 0, _ => throw .unfinished
  | fuel + 1, chunk =>
      match chunk.pending with
      | [] => pure chunk
      | (fromBlock, toBlock) :: rest => do
          let next ← scanRange client filter resultCap chunkStarted attemptsStarted
            { chunk with pending := rest } fromBlock toBlock
          scanPending filter resultCap chunkStarted attemptsStarted fuel next

/-- `while chunk_start <= to_block` -/
def scanChunks (filter : LogFilter) (toBlock maxRange resultCap chunkFuel : Nat) :
    Nat → Nat → LogMetrics → List RpcLog → Scan σ (LogMetrics × List RpcLog)
  | 0, _, _, _ => throw .unfinished
  | fuel + 1, chunkStart, metrics, output =>
      if chunkStart ≤ toBlock then do
        let chunkEnd := min (saturatingAdd chunkStart (maxRange - 1)) toBlock
        let chunkStarted ← client.clock
        let attemptsStarted ← client.attempts
        let chunk ← scanPending client filter resultCap chunkStarted attemptsStarted chunkFuel
          ⟨0, 0, metrics, [(chunkStart, chunkEnd)], output⟩
        if chunkEnd = maxU64 then
          pure (chunk.metrics, chunk.output)
        else
          scanChunks filter toBlock maxRange resultCap chunkFuel fuel (chunkEnd + 1)
            chunk.metrics chunk.output
      else pure (metrics, output)

/-- The order of positions on the chain. -/
def RpcLog.Before (first second : RpcLog) : Prop :=
  first.blockNumber < second.blockNumber ∨
    first.blockNumber = second.blockNumber ∧ first.logIndex < second.logIndex

instance : DecidableRel RpcLog.Before := fun _ _ => inferInstanceAs (Decidable (_ ∨ _))

/-- `sort_by_key` on the position. -/
def sortByPosition (logs : List RpcLog) : List RpcLog :=
  logs.insertionSort fun first second => ¬ second.Before first

/-- The first log whose position was seen before. -/
def duplicatePosition (seen : List (Nat × Nat)) : List RpcLog → Option RpcLog
  | [] => none
  | log :: rest =>
      if (log.blockNumber, log.logIndex) ∈ seen then some log
      else duplicatePosition ((log.blockNumber, log.logIndex) :: seen) rest

def getLogsChunked (fuel : Nat) (filter : LogFilter)
    (fromBlock toBlock maxRange resultCap : Nat) : Scan σ (List RpcLog × LogMetrics) := do
  refuseIf (maxRange = 0 ∨ maxRange > MAX_INITIAL_LOG_RANGE ∨ resultCap = 0 ∨
    resultCap > MAX_LOG_RESULT_CAP) .invalidLogPolicy
  let filter ← ofRpc (canonicalFilter filter)
  if fromBlock > toBlock then pure ([], .default)
  else do
    let started ← client.clock
    let (metrics, output) ← scanChunks client filter toBlock maxRange resultCap fuel fuel fromBlock
      .default []
    let output := sortByPosition output
    match duplicatePosition [] output with
    | some log => failWith (.invalidLog
        s!"duplicate log position {log.blockNumber}:{log.logIndex}")
    | none => do
        let ended ← client.clock
        pure (output, { metrics with elapsedMs := min ((ended - started) / 10 ^ 6) maxU64 })

end Scan

end Usd8Core.Engine
