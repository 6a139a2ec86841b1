import Usd8Core.Engine.ContractReads
import Usd8Core.Lib.KeyedTally
import Std.Data.TreeSet

/-!
# Replaying historical balances

`min_balances_over`, `min_balance_over` and `min_erc1155_balance_over`: the transfer logs
of a window are collected by filter, netted for each account and position, and applied to
the balance before the window.  A map that is filled in the order of its keys is the list
of its entries here.
-/

set_option autoImplicit false

namespace Usd8Core.Engine

open Std
open Usd8Core.Lib.ByteWords
open Usd8Core.Lib.CheckedCall
open Usd8Core.Lib.Json
open Usd8Core.Lib.KeyedTally
open Usd8Core.Lib.OracleCall

/-- The order of tuples. -/
def comparePosition : Nat × Nat → Nat × Nat → Ordering :=
  compareLex (compareOn Prod.fst) (compareOn Prod.snd)

def compareAddress : Address → Address → Ordering := compareOn Address.val

instance : TransCmp comparePosition := inferInstanceAs (TransCmp (compareLex _ _))

instance : TransCmp compareAddress := inferInstanceAs (TransCmp (compareOn _))

def RpcLog.position (log : RpcLog) : Nat × Nat := (log.blockNumber, log.logIndex)

/-! ## Deltas -/

structure NetDelta where
  inflow : Nat
  outflow : Nat
  deriving DecidableEq

instance : Zero NetDelta := ⟨⟨0, 0⟩⟩

instance : Add NetDelta :=
  ⟨fun first second => ⟨first.inflow + second.inflow, first.outflow + second.outflow⟩⟩

instance : AddMonoid NetDelta where
  zero_add delta := congrArg₂ NetDelta.mk (Nat.zero_add _) (Nat.zero_add _)
  add_zero _ := rfl
  add_assoc _ _ _ := congrArg₂ NetDelta.mk (Nat.add_assoc _ _ _) (Nat.add_assoc _ _ _)
  nsmul := nsmulRec

@[simp] theorem NetDelta.mk_add_mk (inflow outflow more less : Nat) :
    (⟨inflow, outflow⟩ : NetDelta) + ⟨more, less⟩ = ⟨inflow + more, outflow + less⟩ := rfl

@[simp] theorem NetDelta.mk_zero : (⟨0, 0⟩ : NetDelta) = 0 := rfl

abbrev Deltas := TreeMap (Nat × Nat) NetDelta comparePosition

def addDelta (deltas : Deltas) (position : Nat × Nat) (value : Nat) (inflow : Bool) : Deltas :=
  enter deltas (position, if inflow then ⟨value, 0⟩ else ⟨0, value⟩)

/-- The loop over the deltas, in the order of their positions. -/
def applyEntries (asset : Address) :
    Nat → Nat → List ((Nat × Nat) × NetDelta) → Except HistoryError (Nat × Nat)
  | minimum, balance, [] => .ok (minimum, balance)
  | minimum, balance, ((block, index), delta) :: rest =>
      if delta.inflow ≥ delta.outflow then
        applyEntries asset minimum (balance + (delta.inflow - delta.outflow)) rest
      else do
        let decrease := delta.outflow - delta.inflow
        revertIf (decrease > balance) (.replayUnderflow asset block index)
        let balance := balance - decrease
        applyEntries asset (if balance < minimum then balance else minimum) balance rest

def applyDeltas (asset : Address) (balance : Nat) (deltas : Deltas) :
    Except HistoryError (Nat × Nat) :=
  applyEntries asset balance balance deltas.toList

/-! ## Transfers of ERC-20 tokens -/

structure TokenTransfer where
  sender : Address
  recipient : Address
  value : Nat
  blockNumber : Nat
  logIndex : Nat
  deriving DecidableEq

abbrev AccountSet := TreeSet Address compareAddress

abbrev UniqueLogs := TreeMap (Nat × Nat) RpcLog comparePosition

/-- `slice.chunks(size)` -/
def chunks {α : Type} (size : Nat) : Nat → List α → List (List α)
  | 0, _ => []
  | _, [] => []
  | rounds + 1, items => items.take size :: chunks size rounds (items.drop size)

def collectLog (unique : UniqueLogs) (log : RpcLog) : Except HistoryError UniqueLogs := do
  revertIf (∃ previous ∈ unique[log.position]?, previous ≠ log) (.invalidConfiguration
    s!"conflicting duplicate transfer log at {log.blockNumber}:{log.logIndex}")
  pure (unique.insert log.position log)

def outgoingFilter (token : Address) (batch : List Address) : LogFilter :=
  ⟨addressHex token, [.string (topicHash transferSignature),
    .array (batch.map (.string <| addressTopic ·))]⟩

def incomingFilter (token : Address) (batch : List Address) : LogFilter :=
  ⟨addressHex token, [.string (topicHash transferSignature), .null,
    .array (batch.map (.string <| addressTopic ·))]⟩

section Replay

variable {σ : Type} (client : RpcClient σ) (abi : AbiLibrary)

/-- `get_logs_chunked(..).await?` -/
def scanLogs (filter : LogFilter) (fromBlock toBlock maxRange resultCap : Nat) :
    Reading σ (List RpcLog × LogMetrics) :=
  mapFailure .rpc
    (getLogsChunked client (scanFuel fromBlock toBlock) filter fromBlock toBlock maxRange resultCap)

/-- The loop over the batches.  The two scans of a batch run concurrently. -/
def collectBatches (token : Address) (fromBlock toBlock maxRange resultCap : Nat) :
    List (List Address) → UniqueLogs → LogMetrics → Reading σ (UniqueLogs × LogMetrics)
  | [], unique, metrics => pure (unique, metrics)
  | batch :: rest, unique, metrics => do
      let (outgoing, outgoingMetrics) ←
        scanLogs client (outgoingFilter token batch) fromBlock toBlock maxRange resultCap
      let (incoming, incomingMetrics) ←
        scanLogs client (incomingFilter token batch) fromBlock toBlock maxRange resultCap
      let unique ← liftResult (outgoing.foldlM collectLog unique)
      let unique ← liftResult (incoming.foldlM collectLog unique)
      collectBatches token fromBlock toBlock maxRange resultCap rest unique
        (mergeLogMetrics (mergeLogMetrics metrics outgoingMetrics) incomingMetrics)

def decodeTransferLog (log : RpcLog) : Except HistoryError TokenTransfer := do
  let event ← decodeEvent abi.transfer transferSignature log
  pure ⟨event.sender, event.recipient, event.value, log.blockNumber, log.logIndex⟩

def erc20TransfersForAccounts (token : Address) (accounts : AccountSet)
    (fromBlock toBlock maxRange resultCap : Nat) :
    Reading σ (List TokenTransfer × LogMetrics) := do
  if toBlock < fromBlock ∨ accounts.isEmpty then pure ([], .default)
  else do
    let (unique, metrics) ← collectBatches client token fromBlock toBlock maxRange resultCap
      (chunks 64 accounts.toList.length accounts.toList) ∅ .default
    let transfers ← liftResult (unique.toList.mapM fun entry => decodeTransferLog abi entry.2)
    pure (transfers, metrics)

/-! ## Minima of ERC-20 balances -/

abbrev AccountDeltas := TreeMap Address Deltas compareAddress

def addAccountDelta (accounts : AccountSet) (deltas : AccountDeltas) (account : Address)
    (transfer : TokenTransfer) (inflow : Bool) : AccountDeltas :=
  if accounts.contains account then
    deltas.alter account fun entries => some (addDelta (entries.getD ∅)
      (transfer.blockNumber, transfer.logIndex) transfer.value inflow)
  else deltas

def addTransfer (accounts : AccountSet) (deltas : AccountDeltas) (transfer : TokenTransfer) :
    AccountDeltas :=
  let deltas := addAccountDelta accounts deltas transfer.sender transfer false
  addAccountDelta accounts deltas transfer.recipient transfer true

/-- What the replay of one account checks and returns. -/
def replayAccount (token : Address) (toBlock : Nat) (deltas : AccountDeltas)
    (starting : Address × Nat) : Reading σ (Address × Nat) := do
  let (minimum, replayed) ← liftResult (applyDeltas token starting.2 (deltas[starting.1]?.getD ∅))
  let actual ← balanceOfAt client abi token starting.1 toBlock
  liftResult (revertIf (actual ≠ replayed) (.balanceReplayMismatch token replayed actual toBlock))
  pure (starting.1, minimum)

def minBalancesOver (token : Address) (accounts : AccountSet)
    (fromBlock toBlock maxRange resultCap : Nat) :
    Reading σ (List (Address × Nat) × LogMetrics) := do
  let startingBalances ← accounts.toList.mapM fun account => do
    let balance ← balanceOfAt client abi token account fromBlock
    pure (account, balance)
  if toBlock ≤ fromBlock then pure (startingBalances, .default)
  else do
    let (transfers, metrics) ← erc20TransfersForAccounts client abi token accounts (fromBlock + 1)
      toBlock maxRange resultCap
    let accountDeltas := transfers.foldl (addTransfer accounts) ∅
    let minimums ← startingBalances.mapM (replayAccount client abi token toBlock accountDeltas)
    pure (minimums, metrics)

def minBalanceOver (token account : Address) (fromBlock toBlock maxRange resultCap : Nat) :
    Reading σ (Nat × LogMetrics) := do
  let (minimums, metrics) ← minBalancesOver client abi token (TreeSet.ofList [account] _) fromBlock
    toBlock maxRange resultCap
  let minimum ← liftResult (orRevert (minimums.lookup account)
    (.invalidConfiguration "missing replayed account minimum"))
  pure (minimum, metrics)

/-! ## Minima of ERC-1155 balances -/

def valuesForId (ids values : List Nat) (wanted : Nat) : Except HistoryError Nat := do
  revertIf (ids.length ≠ values.length) .batchLengthMismatch
  pure (((ids.zip values).filter fun entry => entry.1 = wanted).map Prod.snd).sum

/-- A filter, whether its logs bring something in, and whether they are batches. -/
structure Erc1155Query where
  filter : LogFilter
  inflow : Bool
  batch : Bool

def erc1155Queries (collection account : Address) : List Erc1155Query :=
  [⟨⟨addressHex collection, [.string (topicHash transferSingleSignature), .null,
      .string (addressTopic account)]⟩, false, false⟩,
    ⟨⟨addressHex collection, [.string (topicHash transferSingleSignature), .null, .null,
      .string (addressTopic account)]⟩, true, false⟩,
    ⟨⟨addressHex collection, [.string (topicHash transferBatchSignature), .null,
      .string (addressTopic account)]⟩, false, true⟩,
    ⟨⟨addressHex collection, [.string (topicHash transferBatchSignature), .null, .null,
      .string (addressTopic account)]⟩, true, true⟩]

/-- What a log of a query moves of the wanted id. -/
def erc1155Value (wanted : Nat) (batch : Bool) (log : RpcLog) : Except HistoryError Nat :=
  if batch then do
    let event ← decodeEvent abi.transferBatch transferBatchSignature log
    valuesForId event.ids event.values wanted
  else do
    let event ← decodeEvent abi.transferSingle transferSingleSignature log
    pure (if event.id = wanted then event.value else 0)

def addErc1155Log (wanted : Nat) (inflow batch : Bool) (deltas : Deltas) (log : RpcLog) :
    Except HistoryError Deltas := do
  let value ← erc1155Value abi wanted batch log
  pure (if value ≠ 0 then addDelta deltas log.position value inflow else deltas)

/-- The loop over the queries. -/
def collectErc1155 (wanted fromBlock toBlock maxRange resultCap : Nat) :
    List Erc1155Query → Deltas → LogMetrics → Reading σ (Deltas × LogMetrics)
  | [], deltas, metrics => pure (deltas, metrics)
  | query :: rest, deltas, metrics => do
      let (logs, queryMetrics) ← scanLogs client query.filter fromBlock toBlock maxRange resultCap
      let deltas ← liftResult
        (logs.foldlM (addErc1155Log abi wanted query.inflow query.batch) deltas)
      collectErc1155 wanted fromBlock toBlock maxRange resultCap rest deltas
        (mergeLogMetrics metrics queryMetrics)

def minErc1155BalanceOver (collection account : Address) (id : Nat)
    (fromBlock toBlock maxRange resultCap : Nat) : Reading σ (Nat × LogMetrics) := do
  let startingBalance ← erc1155BalanceOfAt client abi collection account id fromBlock
  if toBlock ≤ fromBlock then pure (startingBalance, .default)
  else do
    let wanted ← liftResult (bigToU256 id "ERC1155 id")
    let (deltas, metrics) ← collectErc1155 client abi wanted (fromBlock + 1) toBlock maxRange
      resultCap (erc1155Queries collection account) ∅ .default
    let (minimum, replayed) ← liftResult (applyDeltas collection startingBalance deltas)
    let actual ← erc1155BalanceOfAt client abi collection account id toBlock
    liftResult (revertIf (actual ≠ replayed)
      (.balanceReplayMismatch collection replayed actual toBlock))
    pure (minimum, metrics)

end Replay

end Usd8Core.Engine
