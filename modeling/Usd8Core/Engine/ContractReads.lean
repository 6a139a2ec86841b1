import Usd8Core.Engine.ScanCompleteness
import Usd8Core.Lib.Keccak256

/-!
# Reading contracts and events

`contract_call` and the balance reads over it, the topics that the engine asks for, and
`decode_event`.  What the ABI library reads of bytes and texts is a parameter.
-/

set_option autoImplicit false

namespace Usd8Core.Engine

open Usd8Core.Lib.ByteWords
open Usd8Core.Lib.CheckedCall
open Usd8Core.Lib.Json
open Usd8Core.Lib.Keccak256
open Usd8Core.Lib.OracleCall

inductive HistoryError where
  | rpc (failure : ScanFailure)
  | abi (function message : String)
  | invalidCallResult (message : String)
  | uint256Overflow (field : String)
  | invalidConfiguration (message : String)
  | eventDecode (event : String) (block index : Nat) (message : String)
  | replayUnderflow (asset : Address) (block index : Nat)
  | balanceReplayMismatch (asset : Address) (replayed actual block : Nat)
  | batchLengthMismatch
  deriving DecidableEq

/-- A computation over the provider that may also fail by what it read. -/
abbrev Reading (σ α : Type) := Asking σ HistoryError α

structure TransferEvent where
  sender : Address
  recipient : Address
  value : Nat
  deriving DecidableEq

structure TransferSingleEvent where
  operator : Address
  sender : Address
  recipient : Address
  id : Nat
  value : Nat
  deriving DecidableEq

structure TransferBatchEvent where
  operator : Address
  sender : Address
  recipient : Address
  ids : List Nat
  values : List Nat
  deriving DecidableEq

/-- What the ABI library reads: the word that a call returned, and an event from the
texts of its topics and of its data. -/
structure AbiLibrary where
  uint256 : List Nat → Except String Nat
  transfer : List String → String → Except String TransferEvent
  transferSingle : List String → String → Except String TransferSingleEvent
  transferBatch : List String → String → Except String TransferBatchEvent

/-! ## Encodings -/

/-- `format!("0x{}", hex::encode(bytes))` -/
def bytesHex (bytes : List Byte) : String := String.ofList ('0' :: 'x' :: bytes.flatMap hexByte)

def transferSignature : String := "Transfer(address,address,uint256)"

def transferSingleSignature : String := "TransferSingle(address,address,address,uint256,uint256)"

def transferBatchSignature : String :=
  "TransferBatch(address,address,address,uint256[],uint256[])"

/-- `topic_hash(SIGNATURE_HASH)`.  No proof should compute it by unfolding. -/
@[irreducible] def topicHash (signature : String) : String := hashHex (keccak256 (asciiBytes signature))

def addressTopic (address : Address) : String := bytesHex (wordBytes address.val)

/-- The selector and the words of a call. -/
def encodeCall (signature : String) (words : List Nat) : List Byte :=
  (keccak256 (asciiBytes signature)).bytes.take 4 ++ encodeWords words

def bigToU256 (value : Nat) (field : String) : Except HistoryError Nat := do
  revertIf ((toBytesBe value).length > 32) (.uint256Overflow field)
  pure value

/-! ## Calls -/

def decodeCallResult (value : JsonValue) : Except HistoryError (List Nat) := do
  let encoded ← orRevert ((value.asString.bind strip0x).filter fun text =>
      (text.map Char.utf8Size).sum % 2 = 0)
    (.invalidCallResult "result is not 0x-prefixed even-length hex")
  orRevert (decodeHexPairs encoded) (.invalidCallResult "result is not valid hex")

def ethCallParams (target : Address) (data : List Byte) (blockNumber : Option Nat) : JsonValue :=
  .array [.object [("to", .string (addressHex target)), ("data", .string (bytesHex data))],
    .string ((blockNumber.map hexQuantityText).getD "latest")]

section Calls

variable {σ : Type} (client : RpcClient σ)

def rawCall (target : Address) (data : List Byte) (blockNumber : Option Nat) :
    Reading σ (List Nat) := do
  let result ← mapFailure .rpc (client.call "eth_call" (ethCallParams target data blockNumber))
  liftResult (decodeCallResult result)

def contractCall {α : Type} (decode : List Nat → Except String α) (signature : String)
    (target : Address) (words : List Nat) (blockNumber : Option Nat) : Reading σ α := do
  let data ← rawCall client target (encodeCall signature words) blockNumber
  liftResult ((decode data).mapError (.abi signature))

variable (abi : AbiLibrary)

def balanceOfAt (token account : Address) (blockNumber : Nat) : Reading σ Nat :=
  contractCall client abi.uint256 "balanceOf(address)" token [account.val] (some blockNumber)

def erc1155BalanceOfAt (collection account : Address) (id blockNumber : Nat) : Reading σ Nat := do
  let id ← liftResult (bigToU256 id "ERC1155 id")
  contractCall client abi.uint256 "balanceOf(address,uint256)" collection [account.val, id]
    (some blockNumber)

end Calls

/-! ## Events -/

def decodeEvent {α : Type} (decode : List String → String → Except String α) (signature : String)
    (log : RpcLog) : Except HistoryError α :=
  (decode log.topics log.data).mapError (.eventDecode signature log.blockNumber log.logIndex)

/-- `u64::saturating_add` on every counter. -/
def mergeLogMetrics (left right : LogMetrics) : LogMetrics :=
  { requests := saturatingAdd left.requests right.requests
    bisections := saturatingAdd left.bisections right.bisections
    errors := saturatingAdd left.errors right.errors
    elapsedMs := saturatingAdd left.elapsedMs right.elapsedMs }

end Usd8Core.Engine
