import Usd8Core.Lib.CheckedCall
import Usd8Core.Lib.Json
import Usd8Core.Lib.OracleCall

/-!
# Logs over JSON-RPC

What the engine asks a provider for logs, and how it reads the answers: one
`eth_getLogs` query, and the receipts of one block.  The provider, the clock and
the timers are the oracle of a scan.
-/

set_option autoImplicit false

namespace Usd8Core.Engine

open Usd8Core.Lib.ByteWords
open Usd8Core.Lib.CheckedCall
open Usd8Core.Lib.Json
open Usd8Core.Lib.OracleCall

def MAX_TOPIC_OPTIONS : Nat := 64

inductive RpcError where
  | unsupportedBatch
  | invalidBatch
  | invalidEndpoint
  | unsupportedScheme
  | untrustedDrpcEndpoint
  | invalidTimeout (maximumMs : Nat)
  | invalidRetryPolicy
  | invalidResponseLimit (maximum : Nat)
  | invalidDrpcKey
  | transport (method message : String)
  | httpStatus (method : String) (status : Nat)
  | invalidResponse (method message : String)
  | responseTooLarge (method : String) (limit : Nat)
  | jsonRpc (code : Int) (message : String)
  | invalidLog (message : String)
  | logCompleteness (count cap block : Nat)
  | invalidLogPolicy
  | logBudgetExceeded (budget : String)
  deriving DecidableEq

/-- How a scan can end without a result. -/
inductive ScanFailure where
  | returned (error : RpcError)
  /-- A map was indexed by a key that it does not have. -/
  | panicked
  /-- The fuel of the model ran out. -/
  | unfinished
  deriving DecidableEq

/-- The provider, the monotonic clock in nanoseconds, and the timers. -/
structure RpcClient (σ : Type) where
  request : String → JsonValue → σ → Except RpcError JsonValue × σ
  transportAttempts : σ → Nat × σ
  now : σ → Nat × σ
  /-- Whether a timer of the duration fires before what it was set for. -/
  expires : Nat → σ → Bool × σ

abbrev Scan (σ α : Type) := Asking σ ScanFailure α

section Client

variable {σ α : Type} (client : RpcClient σ)

def failWith (error : RpcError) : Scan σ α := throw (.returned error)

def ofRpc (result : Except RpcError α) : Scan σ α := liftResult (result.mapError .returned)

def RpcClient.call (method : String) (params : JsonValue) : Scan σ JsonValue :=
  ask fun start =>
    let (answer, last) := client.request method params start
    (answer.mapError .returned, last)

def RpcClient.attempts : Scan σ Nat :=
  ask fun start => ((client.transportAttempts start).map .ok id)

def RpcClient.clock : Scan σ Nat :=
  ask fun start => ((client.now start).map .ok id)

/-- Whether the error is one of the provider or of the reader of its answers. -/
def ScanFailure.asReturned : ScanFailure → Option RpcError
  | .returned error => some error
  | _ => none

/-- `tokio::time::timeout(remaining, call).await.map_err(..)?` -/
def RpcClient.within (remaining : Nat) (call : Scan σ α) : Scan σ (Except RpcError α) := do
  let expired ← ask fun start => ((client.expires remaining start).map .ok id)
  if expired then failWith (.logBudgetExceeded "deadline")
  else attempt ScanFailure.asReturned call

end Client

/-! ## Logs and filters -/

structure RpcLog where
  address : String
  topics : List String
  data : String
  blockNumber : Nat
  transactionHash : String
  logIndex : Nat
  deriving DecidableEq

structure LogFilter where
  address : String
  topics : List JsonValue

def hexQuantity (field : String) (value : JsonValue) : Except RpcError Nat := do
  let text ← orRevert ((value.asString.bind strip0x).filter (¬ ·.isEmpty))
    (.invalidLog ("missing " ++ field))
  orRevert (u64FromHex text) (.invalidLog ("invalid " ++ field))

/-- The length is one of bytes, and a text with others than ASCII digits is refused next. -/
def exactHex (field : String) (value : JsonValue) (bytes : Nat) : Except RpcError String := do
  let text ← orRevert value.asString (.invalidLog ("missing " ++ field))
  let raw ← orRevert ((strip0x text).filter (·.length = 2 * bytes)) (.invalidLog ("invalid " ++ field))
  let _ ← orRevert (decodeHexPairs raw) (.invalidLog ("invalid " ++ field))
  pure (toAsciiLowercase text.toList)

def canonicalTopicFilter (value : JsonValue) (index : Nat) : Except RpcError JsonValue :=
  match value with
  | .null => pure .null
  | .string text => do
      let topic ← exactHex s!"filter topics[{index}]" (.string text) 32
      pure (.string topic)
  | .array options =>
      if options ≠ [] ∧ options.length ≤ MAX_TOPIC_OPTIONS then do
        let topics ← options.zipIdx.mapM fun (value, option) =>
          exactHex s!"filter topics[{index}][{option}]" value 32
        pure (.array (topics.map .string))
      else throw (.invalidLog s!"invalid filter topics[{index}]")
  | _ => throw (.invalidLog s!"invalid filter topics[{index}]")

def canonicalFilter (filter : LogFilter) : Except RpcError LogFilter := do
  revertIf (filter.topics.length > 4) (.invalidLog "filter has more than four topics")
  let address ← exactHex "filter address" (.string filter.address) 20
  let topics ← filter.topics.zipIdx.mapM fun (topic, index) => canonicalTopicFilter topic index
  pure ⟨address, topics⟩

def topicMatches (filter : JsonValue) (topic : String) : Bool :=
  match filter with
  | .null => true
  | .string expected => expected == topic
  | .array options => options.any fun expected => expected.asString == some topic
  | _ => false

def logMatchesFilter (log : RpcLog) (filter : LogFilter) : Bool :=
  filter.topics.zipIdx.all fun (expected, index) =>
    log.topics[index]?.any (topicMatches expected)

def refuseRemoved (value : JsonValue) : Except RpcError Unit :=
  match (value.get "removed").bind JsonValue.asBool with
  | some false => pure ()
  | some true => throw (.invalidLog "removed log returned for pinned range")
  | none => throw (.invalidLog "missing removed flag")

def parseLog (value : JsonValue) : Except RpcError RpcLog := do
  refuseRemoved value
  let address ← exactHex "address" (value.index "address") 20
  let topicValues ← orRevert (value.index "topics").asArray (.invalidLog "missing topics")
  revertIf (topicValues.length > 4) (.invalidLog "log has more than four topics")
  let topics ← topicValues.zipIdx.mapM fun (topic, index) => exactHex s!"topics[{index}]" topic 32
  let data ← orRevert ((value.index "data").asString.filter fun text =>
    ((strip0x text).bind decodeHexPairs).isSome) (.invalidLog "invalid data")
  let blockNumber ← hexQuantity "blockNumber" (value.index "blockNumber")
  let transactionHash ← exactHex "transactionHash" (value.index "transactionHash") 32
  let logIndex ← hexQuantity "logIndex" (value.index "logIndex")
  pure ⟨address, topics, toAsciiLowercase data.toList, blockNumber, transactionHash, logIndex⟩

/-! ## Queries -/

section Queries

variable {σ : Type} (client : RpcClient σ)

/-- The parameters of one `eth_getLogs` request. -/
def logsParams (filter : LogFilter) (fromBlock toBlock : Nat) : JsonValue :=
  .array [.object ([("address", .string filter.address),
    ("fromBlock", .string (hexQuantityText fromBlock)),
    ("toBlock", .string (hexQuantityText toBlock))] ++
      if filter.topics.isEmpty then [] else [("topics", .array filter.topics)])]

/-- A log of an answer, refused where the query did not ask for it. -/
def readLog (filter : LogFilter) (fromBlock toBlock : Nat) (value : JsonValue) :
    Except RpcError RpcLog := do
  let log ← parseLog value
  revertIf (log.blockNumber < fromBlock ∨ log.blockNumber > toBlock) (.invalidLog
    s!"log at block {log.blockNumber} is outside requested range {fromBlock}..={toBlock}")
  revertIf (log.address ≠ filter.address) (.invalidLog "log does not match requested address")
  revertIf (¬ logMatchesFilter log filter) (.invalidLog "log does not match requested topics")
  pure log

def fetchLogs (filter : LogFilter) (fromBlock toBlock : Nat) : Scan σ (List RpcLog) := do
  let result ← client.call "eth_getLogs" (logsParams filter fromBlock toBlock)
  match result with
  | .array values => ofRpc (values.mapM (readLog filter fromBlock toBlock))
  | _ => failWith (.invalidResponse "eth_getLogs" "result is not an array")

/-- `object[key]` of a map, which panics where there is no such key. -/
def fieldOf (object : List (String × JsonValue)) (key : String) : Scan σ JsonValue :=
  match object.lookup key with
  | some value => pure value
  | none => throw .panicked

/-- Whether the receipt is the one of the transaction in the block. -/
def receiptMatches (block : Nat) (blockHash : String) (index : Nat) (transactionHash : String)
    (receipt : JsonValue) : Except RpcError Bool := do
  if (← hexQuantity "receipt blockNumber" (receipt.index "blockNumber")) ≠ block then
    return false
  if (← exactHex "receipt blockHash" (receipt.index "blockHash") 32) ≠ blockHash then
    return false
  if (← hexQuantity "receipt transactionIndex" (receipt.index "transactionIndex")) ≠ index then
    return false
  if (← exactHex "receipt transactionHash" (receipt.index "transactionHash") 32) ≠
      transactionHash then
    return false
  return true

def readReceiptLog (block : Nat) (blockHash transactionHash : String) (value : JsonValue) :
    Except RpcError RpcLog := do
  let logBlockHash ← exactHex "log blockHash" (value.index "blockHash") 32
  revertIf (logBlockHash ≠ blockHash) (.invalidLog "receipt log block hash mismatch")
  let log ← parseLog value
  revertIf (log.blockNumber ≠ block ∨ log.transactionHash ≠ transactionHash)
    (.invalidLog "receipt log position does not match its receipt")
  pure log

/-- The logs of one receipt that the filter takes. -/
def readReceipt (filter : LogFilter) (block : Nat) (blockHash : String) (index : Nat)
    (transactionHash : String) (receipt : JsonValue) : Except RpcError (List RpcLog) := do
  let isMatch ← receiptMatches block blockHash index transactionHash receipt
  revertIf (¬ isMatch) (.invalidLog "receipt does not match the requested canonical block")
  let values ← orRevert (receipt.index "logs").asArray
    (.invalidResponse "eth_getBlockReceipts" "receipt logs is not an array")
  let logs ← values.mapM (readReceiptLog block blockHash transactionHash)
  pure (logs.filter fun log => log.address = filter.address ∧ logMatchesFilter log filter)

def blockReceiptsParams (block : Nat) : JsonValue := .array [.string (hexQuantityText block)]

def fetchBlockReceiptLogs (filter : LogFilter) (block : Nat) : Scan σ (List RpcLog) := do
  let blockValue ← client.call "eth_getBlockByNumber"
    (.array [.string (hexQuantityText block), .bool false])
  let blockObject ← ofRpc (orRevert blockValue.asObject
    (.invalidResponse "eth_getBlockByNumber" "result is not an object"))
  let number ← ofRpc (hexQuantity "block number" (← fieldOf blockObject "number"))
  ofRpc (revertIf (number ≠ block)
    (.invalidLog "block response does not match requested number"))
  let blockHash ← ofRpc (exactHex "block hash" (← fieldOf blockObject "hash") 32)
  let transactionValues ← ofRpc (orRevert (← fieldOf blockObject "transactions").asArray
    (.invalidResponse "eth_getBlockByNumber" "transactions is not an array"))
  let transactionHashes ← ofRpc (transactionValues.zipIdx.mapM fun (hash, index) =>
    exactHex s!"transactions[{index}]" hash 32)
  ofRpc (revertIf (¬ transactionHashes.Nodup)
    (.invalidLog "block contains duplicate transaction hashes"))
  let receiptsValue ← client.call "eth_getBlockReceipts" (blockReceiptsParams block)
  let receipts ← ofRpc (orRevert receiptsValue.asArray
    (.invalidResponse "eth_getBlockReceipts" "result is not an array"))
  ofRpc (revertIf (receipts.length ≠ transactionHashes.length) (.invalidLog
    s!"receipt count {receipts.length} does not match block transaction count {transactionHashes.length}"))
  let output ← ofRpc ((receipts.zip transactionHashes).zipIdx.mapM fun ((receipt, hash), index) =>
    readReceipt filter block blockHash index hash receipt)
  pure output.flatten

end Queries

end Usd8Core.Engine
