import Usd8Core.Engine.BalanceReplay
import Usd8Core.Engine.TokenHistories

/-!
# Minima over a window

The scans of a window give exactly the logs that touch the accounts, whichever filters
and batches they came through.  Netted by position they replay the account's own part of
the history, so the running minimum is the least balance that the account held.
-/

set_option autoImplicit false

namespace Usd8Core.Engine

open Std
open Usd8Core.Lib.BalanceHistory
open Usd8Core.Lib.ByteWords
open Usd8Core.Lib.CheckedCall
open Usd8Core.Lib.EventLog
open Usd8Core.Lib.Json
open Usd8Core.Lib.KeyedTally
open Usd8Core.Lib.OracleCall

/-! ## Topics -/

section Topics

theorem toLower_hexDigit : ∀ value < 16, (hexDigit value).toLower = hexDigit value := by
  decide

theorem map_toLower_flatMap_hexByte (bytes : List Byte) :
    (bytes.flatMap hexByte).map Char.toLower = bytes.flatMap hexByte := by
  induction bytes with
  | nil => rfl
  | cons byte rest ih =>
      have bound := byte.toNat_lt
      have high := toLower_hexDigit (byte.toNat / 16) (by omega)
      have low := toLower_hexDigit (byte.toNat % 16) (by omega)
      simp [hexByte, high, low, ih]

theorem toAsciiLowercase_bytesHex (bytes : List Byte) :
    toAsciiLowercase (bytesHex bytes).toList = bytesHex bytes := by
  have prefix0 : '0'.toLower = '0' := by decide
  have prefixX : 'x'.toLower = 'x' := by decide
  simp [toAsciiLowercase, bytesHex, prefix0, prefixX, map_toLower_flatMap_hexByte]

theorem toAsciiLowercase_topicHash (signature : String) :
    toAsciiLowercase (topicHash signature).toList = topicHash signature := by
  rw [topicHash]
  exact toAsciiLowercase_bytesHex _

theorem bytesHex_injective {first second : List Byte} (same : bytesHex first = bytesHex second) :
    first = second := by
  have chars := String.ofList_injective same
  exact flatMap_hexByte_injective _ _ (List.cons.inj (List.cons.inj chars).2).2

theorem addressTopic_injective {first second : Address}
    (same : addressTopic first = addressTopic second) : first = second :=
  Address.ext_val (wordBytes_injective first.val_lt_word second.val_lt_word
    (bytesHex_injective same))

/-- Topics against the topics of a filter, position by position. -/
def TopicsAllow : List JsonValue → List String → Prop
  | [], _ => True
  | expected :: rest, topic :: topics => TopicAllows expected topic ∧ TopicsAllow rest topics
  | _ :: _, [] => False

theorem topicsAllow_iff (filter : List JsonValue) (topics : List String) :
    TopicsAllow filter topics ↔ ∀ (index : Nat) (expected : JsonValue),
      filter[index]? = some expected →
        ∃ topic, topics[index]? = some topic ∧ TopicAllows expected topic := by
  induction filter generalizing topics with
  | nil => simp [TopicsAllow]
  | cons expected rest ih =>
      cases topics with
      | nil =>
          simp only [TopicsAllow, false_iff]
          intro all
          obtain ⟨topic, isTopic, -⟩ := all 0 expected rfl
          cases isTopic
      | cons topic topics =>
          rw [TopicsAllow, ih]
          constructor
          · rintro ⟨first, later⟩ (_ | index) other atIndex
            · cases atIndex
              exact ⟨topic, rfl, first⟩
            · exact later index other atIndex
          · intro all
            refine ⟨?_, fun index other atIndex => all (index + 1) other atIndex⟩
            obtain ⟨found, isTopic, allowed⟩ := all 0 expected rfl
            cases isTopic
            exact allowed

theorem selects_iff_topicsAllow (contract : Address) (filter : List JsonValue) (log : RpcLog) :
    Selects ⟨addressHex contract, filter⟩ log ↔
      log.address = addressHex contract ∧ TopicsAllow filter log.topics := by
  rw [topicsAllow_iff]
  constructor
  · rintro ⟨address, topics⟩
    exact ⟨address.symm.trans (toAsciiLowercase_bytesHex _), topics⟩
  · rintro ⟨address, topics⟩
    exact ⟨(toAsciiLowercase_bytesHex _).trans address.symm, topics⟩

theorem topicAllows_addressTopic (account other : Address) :
    TopicAllows (.string (addressTopic account)) (addressTopic other) ↔ other = account := by
  rw [TopicAllows, addressTopic, toAsciiLowercase_bytesHex]
  exact ⟨fun same => (addressTopic_injective same).symm, fun same => same ▸ rfl⟩

theorem topicAllows_batch (batch : List Address) (account : Address) :
    TopicAllows (.array (batch.map (.string <| addressTopic ·))) (addressTopic account) ↔
      account ∈ batch := by
  simp only [TopicAllows, List.mem_map, exists_exists_and_eq_and]
  constructor
  · rintro ⟨other, member, raw, isText, lower⟩
    cases isText
    rw [addressTopic, toAsciiLowercase_bytesHex] at lower
    exact addressTopic_injective lower ▸ member
  · intro member
    exact ⟨account, member, _, rfl, toAsciiLowercase_bytesHex _⟩

theorem emittedAs_iff (contract : Address) (signatures : List String) (log : RpcLog) :
    emittedAs contract signatures log = true ↔ log.address = addressHex contract ∧
      ∃ signature ∈ signatures, log.topics.head? = some (topicHash signature) := by
  rw [emittedAs]
  simp

/-- A filter for one signature takes the logs under it that the other topics allow. -/
theorem selects_signed (contract : Address) (signature : String) (rest : List JsonValue)
    (log : RpcLog) :
    Selects ⟨addressHex contract, .string (topicHash signature) :: rest⟩ log ↔
      emittedAs contract [signature] log = true ∧ TopicsAllow rest log.topics.tail := by
  rw [selects_iff_topicsAllow, emittedAs_iff]
  cases log.topics with
  | nil => simp [TopicsAllow]
  | cons topic topics =>
      have isHash : TopicAllows (.string (topicHash signature)) topic ↔
          topic = topicHash signature := by
        rw [TopicAllows, toAsciiLowercase_topicHash]
        exact eq_comm
      simp [TopicsAllow, isHash, and_assoc]

end Topics

/-! ## Reads -/

section Reads

variable {σ : Type} {client : RpcClient σ} {abi : AbiLibrary} {chain : LogChain}
  {resultCap : Nat}

/-- What a reading that ends with a value ends with. -/
abbrev Yields {α : Type} (post : α → Prop) (call : Reading σ α) : Prop :=
  Ends post (fun _ => True) call

theorem yields_result {α : Type} (result : Except HistoryError α) :
    Yields (fun value => result = .ok value) (liftResult result : Reading σ α) :=
  ends_liftResult (fun _ run => run) fun _ _ => trivial

theorem yields_scanLogs (filter : LogFilter) (fromBlock toBlock maxRange : Nat)
    (inWord : toBlock ≤ maxU64) (answers : AnswersCanonically client chain filter resultCap) :
    Yields (fun result => (∀ log, log ∈ result.1 ↔ Wanted chain filter log ∧
        fromBlock ≤ log.blockNumber ∧ log.blockNumber ≤ toBlock) ∧
        result.1.Pairwise RpcLog.Before)
      (scanLogs client filter fromBlock toBlock maxRange resultCap) :=
  ((finishes_getLogsChunked inWord (Nat.le_refl _)).mono
    (fun _ result => Result.complete answers result) (fun _ _ => trivial)).mapFailure
      fun _ _ => trivial

theorem decodeCallResult_ok {value : JsonValue} {data : List Nat}
    (run : decodeCallResult value = .ok data) :
    (value.asString.bind strip0x).bind decodeHexPairs = some data := by
  obtain ⟨encoded, isText, run⟩ := (bind_ok_iff _ _ _).mp run
  have filtered := (orRevert_ok_iff _ _ _).mp isText
  rw [(Option.filter_eq_some_iff.mp filtered).1]
  exact (orRevert_ok_iff _ _ _).mp run

theorem yields_contractCall {contract : Address} {signature : String} {words : List Nat}
    {block result : Nat} (standard : abi.Standard) (fits : result < uintBound 256)
    (answers : AnswersWord client contract signature words block result) :
    Yields (· = result)
      (contractCall client abi.uint256 signature contract words (some block)) := by
  have called : Yields (fun data => data = (wordBytes result).map UInt8.toNat)
      (rawCall client contract (encodeCall signature words) (some block)) := by
    refine ((finishes_call _ _).mapFailure fun _ _ => trivial).bind fun value answered => ?_
    obtain ⟨start, answered⟩ := answered
    refine (yields_result _).mono (fun data run => ?_) fun _ => id
    exact Option.some.inj ((decodeCallResult_ok run).symm.trans (answers start value answered))
  refine called.bind fun data isData => (yields_result _).mono (fun value run => ?_) fun _ => id
  rw [isData, standard.uint256 result fits] at run
  exact (Except.ok.inj run).symm

theorem yields_balanceOfAt {token account : Address} {block : Nat}
    {history : Erc20History chain token} (standard : abi.Standard)
    (valid : history.ledger.Valid chain) (answers : AnswersErc20 client history) :
    Yields (· = history.ledger.bookAt chain block account)
      (balanceOfAt client abi token account block) :=
  yields_contractCall standard (valid.fits block account) (answers account block)

theorem bigToU256_ok {value word : Nat} {field : String}
    (run : bigToU256 value field = .ok word) : word = value ∧ value < uintBound 256 := by
  obtain ⟨_, small, run⟩ := (bind_ok_iff _ _ _).mp run
  have notLong := (revertIf_ok_iff _ _ _).mp small
  refine ⟨((pure_ok_iff _ _).mp run).symm, (byteLength_le_iff value).mp ?_⟩
  simpa [toBytesBe] using notLong

theorem yields_erc1155BalanceOfAt {collection account : Address} {id block : Nat}
    {history : Erc1155History chain collection} (standard : abi.Standard)
    (valid : (history.ledger id).Valid chain) (answers : AnswersErc1155 client history) :
    Yields (· = (history.ledger id).bookAt chain block account)
      (erc1155BalanceOfAt client abi collection account id block) := by
  refine (yields_result _).bind fun word run => ?_
  obtain ⟨rfl, small⟩ := bigToU256_ok run
  exact yields_contractCall standard (valid.fits block account) (answers account word block small)

end Reads

/-! ## The logs of the accounts -/

section Collect

theorem comparePosition_lt {first second : Nat × Nat} :
    comparePosition first second = .lt ↔
      first.1 < second.1 ∨ first.1 = second.1 ∧ first.2 < second.2 := by
  simp only [comparePosition, compareLex, compareOn, Ordering.then_eq_lt, Nat.compare_eq_lt,
    Nat.compare_eq_eq]

instance : LawfulEqCmp comparePosition where
  eq_of_compare {first second} same := by
    simp only [comparePosition, compareLex, compareOn, Ordering.then_eq_eq, Nat.compare_eq_eq] at same
    exact Prod.ext same.1 same.2

instance : LawfulEqCmp compareAddress where
  eq_of_compare same := Address.ext_val (Nat.compare_eq_eq.mp same)

theorem before_iff {first second : RpcLog} :
    first.Before second ↔ comparePosition first.position second.position = .lt := by
  rw [comparePosition_lt]
  rfl

theorem chunks_flatten {α : Type} {size : Nat} (positive : 0 < size) (rounds : Nat)
    (items : List α) (enough : items.length ≤ rounds) :
    (chunks size rounds items).flatten = items := by
  induction rounds generalizing items with
  | zero => simp [chunks, List.length_eq_zero_iff.mp (Nat.le_zero.mp enough)]
  | succ rounds ih =>
      cases items with
      | nil => rfl
      | cons item rest =>
          have shorter : ((item :: rest).drop size).length ≤ rounds := by
            rw [List.length_drop]
            simp only [List.length_cons] at enough ⊢
            omega
          rw [chunks, List.flatten_cons, ih _ shorter, List.take_append_drop]
          simp

/-- The map has exactly these logs, each at its position. -/
def Gathered (logs : RpcLog → Prop) (unique : UniqueLogs) : Prop :=
  ∀ position log, unique[position]? = some log ↔ logs log ∧ log.position = position

variable {chain : LogChain} {logs : RpcLog → Prop} {unique next : UniqueLogs}

theorem Gathered.congr {others : RpcLog → Prop} (gathered : Gathered logs unique)
    (same : ∀ log, logs log ↔ others log) : Gathered others unique := by
  intro position log
  rw [gathered position log, same log]

/-- A log that is there already is the same log. -/
theorem Gathered.collect (gathered : Gathered logs unique) (ordered : chain.Ordered)
    (known : ∀ log, logs log → chain.Has log) {log : RpcLog} (has : chain.Has log)
    (run : collectLog unique log = .ok next) :
    Gathered (fun other => logs other ∨ other = log) next := by
  obtain ⟨_, -, run⟩ := (bind_ok_iff _ _ _).mp run
  rw [← (pure_ok_iff _ _).mp run]
  intro position other
  simp only [TreeMap.getElem?_insert, LawfulEqCmp.compare_eq_iff_eq]
  by_cases here : log.position = position
  · rw [if_pos here]
    constructor
    · intro same
      cases same
      exact ⟨.inr rfl, here⟩
    · rintro ⟨earlier | rfl, there⟩
      · have samePosition := here.trans there.symm
        rw [RpcLog.position, RpcLog.position, Prod.mk.injEq] at samePosition
        rw [ordered.position_unique has (known other earlier) samePosition.1 samePosition.2]
      · rfl
  · rw [if_neg here, gathered position other]
    constructor
    · rintro ⟨earlier, there⟩
      exact ⟨.inl earlier, there⟩
    · rintro ⟨earlier | rfl, there⟩
      · exact ⟨earlier, there⟩
      · exact absurd there here

theorem Gathered.collectAll (ordered : chain.Ordered) :
    ∀ (added : List RpcLog) (logs : RpcLog → Prop) (unique : UniqueLogs), Gathered logs unique →
      (∀ log, logs log → chain.Has log) → (∀ log ∈ added, chain.Has log) →
        added.foldlM collectLog unique = .ok next →
          Gathered (fun log => logs log ∨ log ∈ added) next := by
  intro added
  induction added with
  | nil =>
      intro logs unique gathered _ _ run
      cases (pure_ok_iff _ _).mp run
      simpa using gathered
  | cons log rest ih =>
      intro logs unique gathered known has run
      rw [List.foldlM_cons] at run
      obtain ⟨middle, first, run⟩ := (bind_ok_iff _ _ _).mp run
      have here := has log List.mem_cons_self
      have step := gathered.collect ordered known here first
      have knownThen : ∀ other, logs other ∨ other = log → chain.Has other := by
        rintro other (earlier | rfl)
        · exact known other earlier
        · exact here
      refine (ih _ middle step knownThen
        (fun other member => has other (List.mem_cons_of_mem _ member)) run).congr ?_
      intro other
      rw [List.mem_cons, or_assoc]

end Collect

/-! ## The running minimum -/

section Minimum

theorem applyEntries_cons {asset : Address} {minimum balance : Nat} {position : Nat × Nat}
    {delta : NetDelta} {rest : List ((Nat × Nat) × NetDelta)} {result : Nat × Nat}
    (below : minimum ≤ balance)
    (run : applyEntries asset minimum balance ((position, delta) :: rest) = .ok result) :
    applyEntries asset (min minimum (balance + delta.inflow - delta.outflow))
      (balance + delta.inflow - delta.outflow) rest = .ok result := by
  obtain ⟨block, index⟩ := position
  rw [applyEntries] at run
  split at run
  next rises =>
    have next : balance + (delta.inflow - delta.outflow) =
        balance + delta.inflow - delta.outflow := by omega
    have kept : min minimum (balance + delta.inflow - delta.outflow) = minimum := by omega
    rw [next] at run
    rw [kept]
    exact run
  next falls =>
    obtain ⟨_, covered, run⟩ := (bind_ok_iff _ _ _).mp run
    have next : balance - (delta.outflow - delta.inflow) =
        balance + delta.inflow - delta.outflow := by omega
    rw [next] at run
    have lower (value : Nat) : min minimum value = if value < minimum then value else minimum := by
      split <;> omega
    rw [lower]
    exact run

/-- The loop ends with the least of the balances that it went through. -/
theorem applyEntries_least {asset : Address} {least final : Nat}
    (entries : List ((Nat × Nat) × NetDelta)) (minimum balance : Nat) (below : minimum ≤ balance)
    (run : applyEntries asset minimum balance entries = .ok (least, final)) :
    IsLeast { value | value = minimum ∨ value ∈ replayed balance
      (entries.map fun entry => (entry.2.inflow, entry.2.outflow)) } least := by
  induction entries generalizing minimum balance with
  | nil =>
      cases run
      simp [replayed]
  | cons entry rest ih =>
      have ended := ih _ _ (Nat.min_le_right _ _) (applyEntries_cons below run)
      constructor
      · rcases ended.1 with isMin | later
        · rcases Nat.le_total minimum (balance + entry.2.inflow - entry.2.outflow) with first | first
          · left
            rw [isMin, Nat.min_eq_left first]
          · right
            rw [isMin, Nat.min_eq_right first]
            exact List.mem_cons_self
        · exact .inr (List.mem_cons_of_mem _ later)
      · rintro value (rfl | member)
        · exact (ended.2 (.inl rfl)).trans (Nat.min_le_left _ _)
        · rcases List.mem_cons.mp member with rfl | later
          · exact (ended.2 (.inl rfl)).trans (Nat.min_le_right _ _)
          · exact ended.2 (.inr later)

variable {ledger : TokenLedger} {chain : LogChain} {touches : Address → RpcLog → Prop}
  {account asset : Address} {fromBlock toBlock : Nat}

/-- A replay of what came in and went out, position by position, finds the least balance
that the account held. -/
theorem applyEntries_heldOver (valid : ledger.Valid chain) (forward : fromBlock ≤ toBlock)
    (untouched : ∀ log, ¬ touches account log →
      inflow account (ledger.moves log) = 0 ∧ outflow account (ledger.moves log) = 0)
    (counted : RpcLog → Bool)
    (uncounted : ∀ log, counted log = false →
      inflow account (ledger.moves log) = outflow account (ledger.moves log))
    {entries : List ((Nat × Nat) × NetDelta)} {least final : Nat}
    (netted : entries = ((chain.between ledger.emits (fromBlock + 1) (toBlock - fromBlock)).filter
      counted).map fun log => (log.position,
        ⟨inflow account (ledger.moves log), outflow account (ledger.moves log)⟩))
    (run : applyEntries asset (ledger.bookAt chain fromBlock account)
      (ledger.bookAt chain fromBlock account) entries = .ok (least, final)) :
    IsLeast (ledger.heldOver chain touches account fromBlock toBlock) least := by
  have isLeast := applyEntries_least entries _ _ (Nat.le_refl _) run
  have history := valid.covered (toBlock + 1)
  rw [TokenLedger.bookAt_split forward] at history
  by_cases isVoid : account = .zero
  · subst isVoid
    have nothing : ledger.bookAt chain fromBlock .zero = 0 :=
      (bookAfter_void _ _).trans valid.void
    have isZero : least = 0 := by
      have atMost := isLeast.2 (.inl rfl)
      omega
    rw [TokenLedger.heldOver, held_void, nothing, isZero]
    exact isLeast_singleton
  · have covered : WellFormed .zero ledger.moves (ledger.bookAt chain fromBlock)
        (chain.between ledger.emits (fromBlock + 1) (toBlock - fromBlock)) := history.append
    rw [TokenLedger.heldOver, held_eq_replayed isVoid untouched counted uncounted _ _ covered]
    rw [netted, List.map_map] at isLeast
    exact isLeast

end Minimum

/-! ## ERC-20 -/

section Erc20

variable {σ : Type} {client : RpcClient σ} {abi : AbiLibrary} {chain : LogChain}
  {token : Address} {history : Erc20History chain token} {resultCap : Nat}

theorem Erc20History.topics (history : Erc20History chain token) {log : RpcLog}
    (has : chain.Has log) (emitted : emittedAs token [transferSignature] log = true) :
    log.topics.tail = [addressTopic (history.transfer log).sender,
      addressTopic (history.transfer log).recipient] := by
  rw [(history.logged log has emitted).1, List.tail_cons]

theorem wanted_outgoing (history : Erc20History chain token) (batch : List Address)
    (log : RpcLog) : Wanted chain (outgoingFilter token batch) log ↔
      chain.Has log ∧ history.ledger.emits log = true ∧ (history.transfer log).sender ∈ batch := by
  refine and_congr_right fun has => (selects_signed ..).trans (and_congr_right fun emitted => ?_)
  rw [history.topics has emitted]
  simp [TopicsAllow, topicAllows_batch]

theorem wanted_incoming (history : Erc20History chain token) (batch : List Address)
    (log : RpcLog) : Wanted chain (incomingFilter token batch) log ↔
      chain.Has log ∧ history.ledger.emits log = true ∧
        (history.transfer log).recipient ∈ batch := by
  refine and_congr_right fun has => (selects_signed ..).trans (and_congr_right fun emitted => ?_)
  rw [history.topics has emitted]
  have anySender (topic : String) : TopicAllows .null topic ↔ True := Iff.rfl
  simp [TopicsAllow, topicAllows_batch, anySender]

/-- A transfer log of the range, out of or into one of the accounts. -/
def OfAccounts (history : Erc20History chain token) (fromBlock toBlock : Nat)
    (accounts : List Address) (log : RpcLog) : Prop :=
  (chain.Has log ∧ history.ledger.emits log = true ∧ fromBlock ≤ log.blockNumber ∧
    log.blockNumber ≤ toBlock) ∧
  ((history.transfer log).sender ∈ accounts ∨ (history.transfer log).recipient ∈ accounts)

theorem yields_collectBatches (history : Erc20History chain token) (ordered : chain.Ordered)
    (answers : ∀ filter, AnswersCanonically client chain filter resultCap)
    (fromBlock toBlock maxRange : Nat) (inWord : toBlock ≤ maxU64)
    (batches : List (List Address)) (logs : RpcLog → Prop) (unique : UniqueLogs)
    (metrics : LogMetrics) (gathered : Gathered logs unique)
    (known : ∀ log, logs log → chain.Has log) :
    Yields (fun result => Gathered (fun log => logs log ∨
        OfAccounts history fromBlock toBlock batches.flatten log) result.1)
      (collectBatches client token fromBlock toBlock maxRange resultCap batches unique metrics) := by
  induction batches generalizing logs unique metrics with
  | nil => exact ends_pure (gathered.congr fun log => by simp [OfAccounts])
  | cons batch rest ih =>
      refine (yields_scanLogs _ _ _ _ inWord (answers _)).bind fun outgoing isOutgoing => ?_
      refine (yields_scanLogs _ _ _ _ inWord (answers _)).bind fun incoming isIncoming => ?_
      refine (yields_result _).bind fun middle first => (yields_result _).bind fun last second => ?_
      have outgoingHas : ∀ log ∈ outgoing.1, chain.Has log :=
        fun log member => ((isOutgoing.1 log).mp member).1.1
      have incomingHas : ∀ log ∈ incoming.1, chain.Has log :=
        fun log member => ((isIncoming.1 log).mp member).1.1
      have afterFirst := Gathered.collectAll ordered _ _ _ gathered known outgoingHas first
      have knownFirst : ∀ log, logs log ∨ log ∈ outgoing.1 → chain.Has log :=
        fun log => Or.rec (known log) (outgoingHas log)
      have afterSecond := Gathered.collectAll ordered _ _ _ afterFirst knownFirst incomingHas second
      have knownSecond : ∀ log, (logs log ∨ log ∈ outgoing.1) ∨ log ∈ incoming.1 → chain.Has log :=
        fun log => Or.rec (knownFirst log) (incomingHas log)
      refine (ih _ _ _ afterSecond knownSecond).mono (fun result gathered => ?_) fun _ => id
      refine gathered.congr fun log => ?_
      rw [isOutgoing.1 log, isIncoming.1 log, wanted_outgoing history, wanted_incoming history,
        List.flatten_cons]
      simp only [OfAccounts, List.mem_append]
      tauto

/-- What `erc20_transfers_for_accounts` makes of a log. -/
def Erc20History.tokenTransfer (history : Erc20History chain token) (log : RpcLog) :
    TokenTransfer :=
  ⟨(history.transfer log).sender, (history.transfer log).recipient, (history.transfer log).value,
    log.blockNumber, log.logIndex⟩

theorem decodeTransferLog_eq (standard : abi.Standard) {log : RpcLog} (has : chain.Has log)
    (emitted : history.ledger.emits log = true) :
    decodeTransferLog abi log = .ok (history.tokenTransfer log) := by
  have decoded := standard.transfer _ log (history.logged log has emitted)
  simp only [decodeTransferLog, decodeEvent, decoded]
  rfl

/-- The logs that touch one of the accounts, in the order of the chain. -/
def Erc20History.touching (history : Erc20History chain token) (accounts : AccountSet)
    (fromBlock toBlock : Nat) : List RpcLog :=
  (chain.between history.ledger.emits (fromBlock + 1) (toBlock - fromBlock)).filter fun log =>
    accounts.contains (history.transfer log).sender ||
      accounts.contains (history.transfer log).recipient

variable {accounts : AccountSet} {fromBlock toBlock : Nat}

theorem mem_touching {log : RpcLog} : log ∈ history.touching accounts fromBlock toBlock ↔
    OfAccounts history (fromBlock + 1) toBlock accounts.toList log := by
  simp only [Erc20History.touching, List.mem_filter, LogChain.mem_between, OfAccounts,
    Bool.or_eq_true, TreeSet.mem_toList, TreeSet.contains_iff_mem]
  refine and_congr_left fun _ => and_congr_right fun _ => and_congr_right fun _ => ?_
  omega

theorem touching_pairwise (ordered : chain.Ordered) :
    (history.touching accounts fromBlock toBlock).Pairwise RpcLog.Before :=
  (LogChain.between_pairwise ordered _ _).filter _

theorem yields_erc20Transfers (history : Erc20History chain token) (standard : abi.Standard) (ordered : chain.Ordered)
    (answers : ∀ filter, AnswersCanonically client chain filter resultCap) (maxRange : Nat)
    (inWord : toBlock ≤ maxU64) (window : fromBlock < toBlock) :
    Yields (fun result => result.1 = (history.touching accounts fromBlock toBlock).map
        history.tokenTransfer)
      (erc20TransfersForAccounts client abi token accounts (fromBlock + 1) toBlock maxRange
        resultCap) := by
  refine ends_ite (fun none => ends_pure ?_) fun _ => ?_
  · have empty : accounts.isEmpty = true := none.resolve_left (by omega)
    have untouched : history.touching accounts fromBlock toBlock = [] := by
      rw [Erc20History.touching, List.filter_eq_nil_iff]
      intro log _
      simp [TreeSet.contains_of_isEmpty empty]
    rw [untouched]
    rfl
  · have batched : (chunks 64 accounts.toList.length accounts.toList).flatten = accounts.toList :=
      chunks_flatten (by decide) _ _ (Nat.le_refl _)
    refine (yields_collectBatches history ordered answers _ _ _ inWord _
      (fun _ => False) ∅ .default ?_ fun _ => False.elim).bind fun collected gathered => ?_
    · intro position log
      simp
    rw [batched] at gathered
    have exact : Gathered (· ∈ history.touching accounts fromBlock toBlock) collected.1 :=
      gathered.congr fun log => by rw [false_or, mem_touching]
    have listed : collected.1.toList = (history.touching accounts fromBlock toBlock).map
        fun log => (log.position, log) := by
      refine toList_eq _ _ ?_ fun position log => ?_
      · rw [List.pairwise_map]
        exact (touching_pairwise ordered).imp before_iff.mp
      · rw [exact position log]
        simp only [List.mem_map, Prod.mk.injEq]
        constructor
        · rintro ⟨member, here⟩
          exact ⟨log, member, here, rfl⟩
        · rintro ⟨_, member, here, rfl⟩
          exact ⟨member, here⟩
    refine (yields_result _).bind fun transfers decoded => ends_pure ?_
    have decodes : ((history.touching accounts fromBlock toBlock).map fun log =>
        (log.position, log)).mapM (fun entry => decodeTransferLog abi entry.2) =
          .ok ((history.touching accounts fromBlock toBlock).map history.tokenTransfer) := by
      rw [mapM_ok_iff, List.forall₂_map_left_iff, List.forall₂_map_right_iff, List.forall₂_same]
      intro log member
      obtain ⟨⟨has, emitted, -⟩, -⟩ := mem_touching.mp member
      exact decodeTransferLog_eq standard has emitted
    rw [listed, decodes] at decoded
    exact (Except.ok.inj decoded).symm

/-! ## Deltas of an account -/

def TokenTransfer.position (transfer : TokenTransfer) : Nat × Nat :=
  (transfer.blockNumber, transfer.logIndex)

/-- What a transfer enters for an account; both for a transfer to itself. -/
def TokenTransfer.deltas (account : Address) (transfer : TokenTransfer) : List NetDelta :=
  (if transfer.sender = account then [⟨0, transfer.value⟩] else []) ++
    if transfer.recipient = account then [⟨transfer.value, 0⟩] else []

variable {account : Address}

theorem addAccountDelta_getD (member : accounts.contains account = true) (deltas : AccountDeltas)
    (other : Address) (transfer : TokenTransfer) (inflow : Bool) :
    (addAccountDelta accounts deltas other transfer inflow)[account]?.getD ∅ =
      if other = account then
        addDelta (deltas[account]?.getD ∅) transfer.position transfer.value inflow
      else deltas[account]?.getD ∅ := by
  unfold addAccountDelta
  by_cases same : other = account
  · subst same
    rw [if_pos member, if_pos rfl, TreeMap.getElem?_alter_self, Option.getD_some]
    rfl
  · rw [if_neg same]
    split
    · rw [TreeMap.getElem?_alter, if_neg (same ∘ LawfulEqCmp.eq_of_compare)]
    · rfl

theorem addTransfers_getD (member : accounts.contains account = true)
    (transfers : List TokenTransfer) (deltas : AccountDeltas) :
    (transfers.foldl (addTransfer accounts) deltas)[account]?.getD ∅ =
      enterAll (deltas[account]?.getD ∅)
        (entriesOf TokenTransfer.position transfers (TokenTransfer.deltas account)) := by
  induction transfers generalizing deltas with
  | nil => rfl
  | cons transfer rest ih =>
      have entered : (addTransfer accounts deltas transfer)[account]?.getD ∅ =
          enterAll (deltas[account]?.getD ∅)
            ((transfer.deltas account).map (Prod.mk transfer.position)) := by
        rw [addTransfer, addAccountDelta_getD member, addAccountDelta_getD member]
        by_cases isSender : transfer.sender = account <;>
          by_cases isRecipient : transfer.recipient = account <;>
            simp [TokenTransfer.deltas, isSender, isRecipient, enterAll, addDelta]
      rw [List.foldl_cons, ih, entered]
      exact List.foldl_append.symm

theorem deltas_ne_nil (log : RpcLog) :
    (history.tokenTransfer log).deltas account ≠ [] ↔ (history.transfer log).Touches account := by
  by_cases isSender : (history.transfer log).sender = account <;>
    by_cases isRecipient : (history.transfer log).recipient = account <;>
      simp [TokenTransfer.deltas, TransferEvent.Touches, Erc20History.tokenTransfer, isSender,
        isRecipient]

theorem deltas_sum (log : RpcLog) : ((history.tokenTransfer log).deltas account).sum =
    ⟨inflow account (history.ledger.moves log), outflow account (history.ledger.moves log)⟩ := by
  by_cases isSender : (history.transfer log).sender = account <;>
    by_cases isRecipient : (history.transfer log).recipient = account <;>
      simp [TokenTransfer.deltas, Erc20History.tokenTransfer, Erc20History.ledger, inflow, outflow,
        isSender, isRecipient]

/-- The transfers of an account, each with what it brought in and took out. -/
theorem accountDeltas_toList (ordered : chain.Ordered) (member : account ∈ accounts) :
    ((((history.touching accounts fromBlock toBlock).map history.tokenTransfer).foldl
      (addTransfer accounts) ∅)[account]?.getD ∅).toList =
      ((chain.between history.ledger.emits (fromBlock + 1) (toBlock - fromBlock)).filter fun log =>
        (history.transfer log).Touches account).map fun log => (log.position,
          ⟨inflow account (history.ledger.moves log),
            outflow account (history.ledger.moves log)⟩) := by
  have contained := TreeSet.contains_iff_mem.mpr member
  have nothing : ((∅ : AccountDeltas)[account]?).getD ∅ = ∅ := by simp
  have listed : (enterAll (∅ : Deltas) ([TokenTransfer.deltas account].flatMap
      (entriesOf TokenTransfer.position
        ((history.touching accounts fromBlock toBlock).map history.tokenTransfer)))).toList = _ :=
    enterAll_passes_toList _ _ <| by
      rw [List.pairwise_map]
      exact (touching_pairwise ordered).imp before_iff.mp
  rw [List.flatMap_singleton] at listed
  rw [addTransfers_getD contained, nothing, listed, List.filter_map, List.map_map]
  have sameLogs : (history.touching accounts fromBlock toBlock).filter
        ((fun transfer => [TokenTransfer.deltas account].any fun amounts => amounts transfer ≠ []) ∘
          history.tokenTransfer) =
      (chain.between history.ledger.emits (fromBlock + 1) (toBlock - fromBlock)).filter fun log =>
        (history.transfer log).Touches account := by
    rw [Erc20History.touching, List.filter_filter]
    refine List.filter_congr fun log _ => ?_
    have anyDeltas : ([TokenTransfer.deltas account].any fun amounts =>
        amounts (history.tokenTransfer log) ≠ []) = decide ((history.transfer log).Touches account) := by
      rw [List.any_cons, List.any_nil, Bool.or_false]
      exact decide_eq_decide.mpr (deltas_ne_nil log)
    rw [Function.comp_apply, anyDeltas]
    by_cases touched : (history.transfer log).Touches account
    · rcases touched with isSender | isRecipient
      · simp [isSender, contained]
      · simp [isRecipient, contained]
    · simp [touched]
  rw [sameLogs]
  refine List.map_congr_left fun log _ => ?_
  simp [deltas_sum]
  rfl

/-- What the account held in the window by the token's ledger. -/
def Erc20History.heldOver (history : Erc20History chain token) (account : Address)
    (fromBlock toBlock : Nat) : Set Nat :=
  history.ledger.heldOver chain (fun account log => (history.transfer log).Touches account) account
    fromBlock toBlock

/-- An account and the least balance that it held. -/
def IsMinimum (history : Erc20History chain token) (fromBlock toBlock : Nat) (account : Address)
    (entry : Address × Nat) : Prop :=
  entry.1 = account ∧ IsLeast (history.heldOver account fromBlock toBlock) entry.2

theorem Erc20History.flow_of_not_touches {log : RpcLog}
    (untouched : ¬ (history.transfer log).Touches account) :
    inflow account (history.ledger.moves log) = 0 ∧
      outflow account (history.ledger.moves log) = 0 := by
  rw [TransferEvent.Touches, not_or] at untouched
  simp [Erc20History.ledger, inflow, outflow, untouched.1, untouched.2]

theorem yields_replayAccount (ordered : chain.Ordered) (valid : history.ledger.Valid chain)
    (window : fromBlock < toBlock) (member : account ∈ accounts) {starting : Address × Nat}
    (isStart : starting = (account, history.ledger.bookAt chain fromBlock account)) :
    Yields (IsMinimum history fromBlock toBlock account)
      (replayAccount client abi token toBlock
        (((history.touching accounts fromBlock toBlock).map history.tokenTransfer).foldl
          (addTransfer accounts) ∅) starting) := by
  subst isStart
  refine (yields_result _).bind fun result run => ?_
  obtain ⟨minimum, replayed⟩ := result
  rw [applyDeltas, accountDeltas_toList ordered member] at run
  have least : IsLeast (history.heldOver account fromBlock toBlock) minimum :=
    applyEntries_heldOver valid window.le (fun _ => Erc20History.flow_of_not_touches) _
      (fun log uncounted => by
        have flow := Erc20History.flow_of_not_touches (of_decide_eq_false uncounted)
        rw [flow.1, flow.2]) rfl run
  exact ends_true.bind fun _ _ => (yields_result _).bind fun _ _ => ends_pure ⟨rfl, least⟩

theorem yields_minBalancesOver (standard : abi.Standard) (ordered : chain.Ordered)
    (valid : history.ledger.Valid chain) (balances : AnswersErc20 client history)
    (answers : ∀ filter, AnswersCanonically client chain filter resultCap) (maxRange : Nat)
    (inWord : toBlock ≤ maxU64) (window : fromBlock < toBlock) :
    Yields (fun result => List.Forall₂ (IsMinimum history fromBlock toBlock) accounts.toList
        result.1)
      (minBalancesOver client abi token accounts fromBlock toBlock maxRange resultCap) := by
  have started (account : Address) : Yields
      (· = (account, history.ledger.bookAt chain fromBlock account)) (do
        let balance ← balanceOfAt client abi token account fromBlock
        pure (account, balance)) :=
    (yields_balanceOfAt standard valid balances).bind fun balance isBalance =>
      ends_pure (by rw [isBalance])
  refine (ends_mapM _ fun account _ => started account).bind fun starting each => ?_
  have isStart : starting = accounts.toList.map fun account =>
      (account, history.ledger.bookAt chain fromBlock account) := by
    have paired := List.forall₂_map_right_iff.mpr each.flip
    rw [List.forall₂_eq_eq_eq] at paired
    exact paired
  subst isStart
  refine ends_ite (fun none => absurd none (by omega)) fun _ => ?_
  refine (yields_erc20Transfers history standard ordered answers maxRange inWord window).bind
    fun collected isTransfers => ?_
  have replay (entry : Address × Nat)
      (member : entry ∈ accounts.toList.map fun account =>
        (account, history.ledger.bookAt chain fromBlock account)) :
      Yields (IsMinimum history fromBlock toBlock entry.1) (replayAccount client abi token toBlock
        (collected.1.foldl (addTransfer accounts) ∅) entry) := by
    obtain ⟨account, inAccounts, rfl⟩ := List.mem_map.mp member
    rw [isTransfers]
    exact yields_replayAccount ordered valid window (TreeSet.mem_toList.mp inAccounts) rfl
  refine (ends_mapM _ replay).bind fun minimums replayed => ends_pure ?_
  rw [List.forall₂_map_left_iff] at replayed
  exact replayed

theorem accounts_of_minimums {accounts : List Address} {entries : List (Address × Nat)}
    (each : List.Forall₂ (IsMinimum history fromBlock toBlock) accounts entries) :
    entries.map Prod.fst = accounts := by
  induction each with
  | nil => rfl
  | cons first _ ih => rw [List.map_cons, first.1, ih]

theorem least_of_mem {accounts : List Address} {entries : List (Address × Nat)}
    (each : List.Forall₂ (IsMinimum history fromBlock toBlock) accounts entries)
    {entry : Address × Nat} (member : entry ∈ entries) :
    IsLeast (history.heldOver entry.1 fromBlock toBlock) entry.2 := by
  induction each with
  | nil => cases member
  | cons first _ ih =>
      rcases List.mem_cons.mp member with rfl | later
      · rw [first.1]
        exact first.2
      · exact ih later

theorem yields_minBalanceOver (standard : abi.Standard) (ordered : chain.Ordered)
    (valid : history.ledger.Valid chain) (balances : AnswersErc20 client history)
    (answers : ∀ filter, AnswersCanonically client chain filter resultCap) (maxRange : Nat)
    (inWord : toBlock ≤ maxU64) (window : fromBlock < toBlock) :
    Yields (fun result => IsLeast (history.heldOver account fromBlock toBlock) result.1)
      (minBalanceOver client abi token account fromBlock toBlock maxRange resultCap) := by
  refine (yields_minBalancesOver standard ordered valid balances answers maxRange inWord
    window).bind fun minimums each => ?_
  refine (yields_result _).bind fun minimum found => ends_pure ?_
  obtain ⟨before, after, split, -⟩ :=
    List.lookup_eq_some_iff.mp ((orRevert_ok_iff _ _ _).mp found)
  exact least_of_mem each (split ▸ List.mem_append_right _ List.mem_cons_self)

end Erc20

end Usd8Core.Engine
