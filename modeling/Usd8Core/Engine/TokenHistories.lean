import Usd8Core.Engine.ContractReads
import Usd8Core.Lib.BalanceHistory
import Mathlib.Data.List.Pairwise

/-!
# Token histories

The transfer logs that a token left on a chain, the book that they keep, and what a
provider and the ABI library owe to whoever reads them.  The same ledger stands for an
ERC-20 token and for one id of an ERC-1155 collection.
-/

set_option autoImplicit false

namespace Usd8Core.Engine

open Usd8Core.Lib.BalanceHistory
open Usd8Core.Lib.ByteWords
open Usd8Core.Lib.CheckedCall
open Usd8Core.Lib.Json
open Usd8Core.Lib.OracleCall

/-! ## Logs in the order of the chain -/

/-- The logs of a block come in the order of their indices. -/
def LogChain.Ordered (chain : LogChain) : Prop :=
  ∀ block, (chain.receipts block).flatten.Pairwise RpcLog.Before

/-- The logs of one kind in `count` blocks from `first` on. -/
def LogChain.between (chain : LogChain) (emits : RpcLog → Bool) (first count : Nat) :
    List RpcLog :=
  (List.range' first count).flatMap fun block => (chain.receipts block).flatten.filter emits

section Chain

variable {chain : LogChain} {emits : RpcLog → Bool}

theorem LogChain.mem_between {first count : Nat} {log : RpcLog} :
    log ∈ chain.between emits first count ↔ chain.Has log ∧ emits log = true ∧
      first ≤ log.blockNumber ∧ log.blockNumber < first + count := by
  simp only [LogChain.between, List.mem_flatMap, List.mem_range'_1, List.mem_filter,
    chain.has_iff]
  constructor
  · rintro ⟨block, inside, ⟨has, rfl⟩, emitted⟩
    exact ⟨has, emitted, inside⟩
  · rintro ⟨has, emitted, inside⟩
    exact ⟨_, inside, ⟨has, rfl⟩, emitted⟩

theorem LogChain.between_pairwise (ordered : chain.Ordered) (first count : Nat) :
    (chain.between emits first count).Pairwise RpcLog.Before := by
  rw [LogChain.between, List.pairwise_flatMap]
  refine ⟨fun block _ => (ordered block).filter _, ?_⟩
  refine List.Pairwise.imp ?_ List.pairwise_lt_range'
  intro earlier later below log inEarlier other inLater
  left
  rw [((chain.has_iff _ _).mp (List.mem_of_mem_filter inEarlier)).2,
    ((chain.has_iff _ _).mp (List.mem_of_mem_filter inLater)).2]
  exact below

theorem LogChain.between_append (first count more : Nat) :
    chain.between emits first (count + more) =
      chain.between emits first count ++ chain.between emits (first + count) more := by
  rw [LogChain.between, ← List.range'_append_1, List.flatMap_append]
  rfl

/-- No two logs of a chain are at one position. -/
theorem LogChain.Ordered.position_unique (ordered : chain.Ordered) {log other : RpcLog}
    (has : chain.Has log) (otherHas : chain.Has other)
    (sameBlock : log.blockNumber = other.blockNumber) (sameIndex : log.logIndex = other.logIndex) :
    log = other := by
  have inBlock := (chain.has_iff other.blockNumber log).mpr ⟨has, sameBlock⟩
  have distinct : (chain.receipts other.blockNumber).flatten.Pairwise fun first second =>
      first.logIndex ≠ second.logIndex := by
    refine (ordered other.blockNumber).imp_of_mem ?_
    intro first second inFirst inSecond before same
    have firstBlock := ((chain.has_iff _ _).mp inFirst).2
    have secondBlock := ((chain.has_iff _ _).mp inSecond).2
    simp only [RpcLog.Before, firstBlock, secondBlock, same] at before
    omega
  have symmetric : Std.Symm fun first second : RpcLog => first.logIndex ≠ second.logIndex :=
    ⟨fun _ _ => Ne.symm⟩
  by_contra differ
  exact distinct.forall inBlock otherHas differ sameIndex

end Chain

/-! ## Ledgers -/

/-- What a token's logs move, from balances that it started with. -/
structure TokenLedger where
  emits : RpcLog → Bool
  moves : RpcLog → List (Move Address)
  genesis : Address → Nat

def TokenLedger.bookAt (ledger : TokenLedger) (chain : LogChain) (block : Nat) : Address → Nat :=
  bookAfter .zero ledger.moves ledger.genesis (chain.between ledger.emits 0 (block + 1))

/-- The balance at the end of `fromBlock`, and those after the logs up to `toBlock` that
touch the account. -/
def TokenLedger.heldOver (ledger : TokenLedger) (chain : LogChain)
    (touches : Address → RpcLog → Prop) (account : Address) (fromBlock toBlock : Nat) : Set Nat :=
  Held .zero ledger.moves (ledger.bookAt chain fromBlock)
    (chain.between ledger.emits (fromBlock + 1) (toBlock - fromBlock)) (touches account) account

/-- The zero address has nothing, no transfer takes more than there is, and balances are
words. -/
structure TokenLedger.Valid (ledger : TokenLedger) (chain : LogChain) : Prop where
  void : ledger.genesis .zero = 0
  covered : ∀ block, WellFormed .zero ledger.moves ledger.genesis
    (chain.between ledger.emits 0 block)
  fits : ∀ block account, ledger.bookAt chain block account < uintBound 256

section Ledger

variable {ledger : TokenLedger} {chain : LogChain}

theorem TokenLedger.bookAt_split {fromBlock toBlock : Nat} (forward : fromBlock ≤ toBlock) :
    chain.between ledger.emits 0 (toBlock + 1) = chain.between ledger.emits 0 (fromBlock + 1) ++
      chain.between ledger.emits (fromBlock + 1) (toBlock - fromBlock) := by
  have split : chain.between ledger.emits 0 (fromBlock + 1 + (toBlock - fromBlock)) = _ :=
    chain.between_append 0 (fromBlock + 1) (toBlock - fromBlock)
  rw [Nat.zero_add] at split
  rw [← split]
  congr 1
  omega

end Ledger

/-! ## Events in logs -/

/-- The text of data that is these words. -/
def wordsHex (words : List Nat) : String := bytesHex (encodeWords words)

/-- Two dynamic arrays: their offsets, then each with its length. -/
def encodeArrays (first second : List Nat) : List Nat :=
  [64, 96 + 32 * first.length, first.length] ++ first ++ second.length :: second

def AreWords (words : List Nat) : Prop := ∀ word ∈ words, word < uintBound 256

def TransferEvent.Logged (event : TransferEvent) (log : RpcLog) : Prop :=
  log.topics = [topicHash transferSignature, addressTopic event.sender,
    addressTopic event.recipient] ∧ log.data = wordsHex [event.value] ∧ AreWords [event.value]

def TransferSingleEvent.Logged (event : TransferSingleEvent) (log : RpcLog) : Prop :=
  log.topics = [topicHash transferSingleSignature, addressTopic event.operator,
    addressTopic event.sender, addressTopic event.recipient] ∧
  log.data = wordsHex [event.id, event.value] ∧ AreWords [event.id, event.value]

def TransferBatchEvent.Logged (event : TransferBatchEvent) (log : RpcLog) : Prop :=
  log.topics = [topicHash transferBatchSignature, addressTopic event.operator,
    addressTopic event.sender, addressTopic event.recipient] ∧
  log.data = wordsHex (encodeArrays event.ids event.values) ∧
  AreWords (encodeArrays event.ids event.values)

/-- The library reads back what contracts return and log. -/
structure AbiLibrary.Standard (abi : AbiLibrary) : Prop where
  uint256 : ∀ value < uintBound 256, abi.uint256 ((wordBytes value).map UInt8.toNat) = .ok value
  transfer : ∀ event log, TransferEvent.Logged event log →
    abi.transfer log.topics log.data = .ok event
  transferSingle : ∀ event log, TransferSingleEvent.Logged event log →
    abi.transferSingle log.topics log.data = .ok event
  transferBatch : ∀ event log, TransferBatchEvent.Logged event log →
    abi.transferBatch log.topics log.data = .ok event

/-- The contract emitted the log under one of the signatures. -/
@[irreducible] def emittedAs (contract : Address) (signatures : List String) (log : RpcLog) : Bool :=
  log.address == addressHex contract &&
    signatures.any fun signature => log.topics.head? == some (topicHash signature)

/-! ## ERC-20 -/

structure Erc20History (chain : LogChain) (token : Address) where
  transfer : RpcLog → TransferEvent
  genesis : Address → Nat
  logged : ∀ log, chain.Has log → emittedAs token [transferSignature] log = true →
    (transfer log).Logged log

def TransferEvent.Touches (event : TransferEvent) (account : Address) : Prop :=
  event.sender = account ∨ event.recipient = account

instance (event : TransferEvent) (account : Address) : Decidable (event.Touches account) :=
  inferInstanceAs (Decidable (_ ∨ _))

def Erc20History.ledger {chain : LogChain} {token : Address} (history : Erc20History chain token) :
    TokenLedger where
  emits := emittedAs token [transferSignature]
  moves log := [⟨(history.transfer log).sender, (history.transfer log).recipient,
    (history.transfer log).value⟩]
  genesis := history.genesis

/-! ## ERC-1155 -/

inductive Erc1155Event where
  | single (event : TransferSingleEvent)
  | batch (event : TransferBatchEvent)

namespace Erc1155Event

def sender : Erc1155Event → Address
  | single event => event.sender
  | batch event => event.sender

def recipient : Erc1155Event → Address
  | single event => event.recipient
  | batch event => event.recipient

def Logged (log : RpcLog) : Erc1155Event → Prop
  | single event => event.Logged log
  | batch event => event.Logged log

/-- The ids and values that the event moves, one after the other. -/
def entries : Erc1155Event → List (Nat × Nat)
  | single event => [(event.id, event.value)]
  | batch event => event.ids.zip event.values

def movesOf (id : Nat) (event : Erc1155Event) : List (Move Address) :=
  (event.entries.filter fun entry => entry.1 = id).map fun entry =>
    ⟨event.sender, event.recipient, entry.2⟩

def Touches (event : Erc1155Event) (account : Address) : Prop :=
  event.sender = account ∨ event.recipient = account

instance (event : Erc1155Event) (account : Address) : Decidable (event.Touches account) :=
  inferInstanceAs (Decidable (_ ∨ _))

end Erc1155Event

structure Erc1155History (chain : LogChain) (collection : Address) where
  transfer : RpcLog → Erc1155Event
  genesis : Nat → Address → Nat
  logged : ∀ log, chain.Has log →
    emittedAs collection [transferSingleSignature, transferBatchSignature] log = true →
      (transfer log).Logged log

def Erc1155History.ledger {chain : LogChain} {collection : Address}
    (history : Erc1155History chain collection) (id : Nat) : TokenLedger where
  emits := emittedAs collection [transferSingleSignature, transferBatchSignature]
  moves log := (history.transfer log).movesOf id
  genesis := history.genesis id

/-! ## Answers about balances -/

section Answers

variable {σ : Type} (client : RpcClient σ)

/-- A call that is answered at all returns the word. -/
def AnswersWord (contract : Address) (signature : String) (words : List Nat) (block result : Nat) :
    Prop :=
  ∀ start value,
    (client.request "eth_call" (ethCallParams contract (encodeCall signature words) (some block))
      start).1 = .ok value →
    (value.asString.bind strip0x).bind decodeHexPairs = some ((wordBytes result).map UInt8.toNat)

def AnswersErc20 {chain : LogChain} {token : Address} (history : Erc20History chain token) : Prop :=
  ∀ account block, AnswersWord client token "balanceOf(address)" [account.val] block
    (history.ledger.bookAt chain block account)

def AnswersErc1155 {chain : LogChain} {collection : Address}
    (history : Erc1155History chain collection) : Prop :=
  ∀ account id block, id < uintBound 256 →
    AnswersWord client collection "balanceOf(address,uint256)" [account.val, id] block
      ((history.ledger id).bookAt chain block account)

end Answers

end Usd8Core.Engine
