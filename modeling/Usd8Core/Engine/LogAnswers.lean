import Usd8Core.Engine.Rpc

/-!
# What a canonical provider answers

The logs of a chain, which of them a filter selects, and a provider whose answers
describe them.  The two readers of the engine then return exactly such logs.
-/

set_option autoImplicit false

namespace Usd8Core.Engine

open Usd8Core.Lib.ByteWords
open Usd8Core.Lib.CheckedCall
open Usd8Core.Lib.Json
open Usd8Core.Lib.OracleCall

/-! ## The chain -/

/-- The logs of every block, transaction by transaction. -/
structure LogChain where
  receipts : Nat → List (List RpcLog)
  placed : ∀ block, ∀ logs ∈ receipts block, ∀ log ∈ logs, log.blockNumber = block

def LogChain.Has (chain : LogChain) (log : RpcLog) : Prop :=
  log ∈ (chain.receipts log.blockNumber).flatten

theorem LogChain.has_iff (chain : LogChain) (block : Nat) (log : RpcLog) :
    log ∈ (chain.receipts block).flatten ↔ chain.Has log ∧ log.blockNumber = block := by
  constructor
  · intro member
    obtain ⟨logs, receipt, inLogs⟩ := List.mem_flatten.mp member
    have isPlaced := chain.placed block logs receipt log inLogs
    rw [LogChain.Has, isPlaced]
    exact ⟨member, rfl⟩
  · rintro ⟨has, rfl⟩
    exact has

/-! ## Texts of either case -/

/-- The value is the text, in letters of either case. -/
def Writes (value : JsonValue) (text : String) : Prop :=
  ∃ raw, value = .string raw ∧ toAsciiLowercase raw.toList = text

def WritesNumber (value : JsonValue) (number : Nat) : Prop :=
  ∃ text, value = .string text ∧ WritesQuantity text number

theorem exactHex_ok {field : String} {value : JsonValue} {bytes : Nat} {text : String}
    (run : exactHex field value bytes = .ok text) : Writes value text := by
  obtain ⟨raw, isText, run⟩ := (bind_ok_iff _ _ _).mp run
  obtain ⟨_, -, run⟩ := (bind_ok_iff _ _ _).mp run
  obtain ⟨_, -, run⟩ := (bind_ok_iff _ _ _).mp run
  refine ⟨raw, ?_, (pure_ok_iff _ _).mp run⟩
  cases value <;> simp_all [JsonValue.asString, orRevert]

theorem Writes.unique {value : JsonValue} {first second : String} (one : Writes value first)
    (other : Writes value second) : first = second := by
  obtain ⟨raw, rfl, rfl⟩ := one
  obtain ⟨_, same, rfl⟩ := other
  cases same
  rfl

theorem hexQuantity_ok {field : String} {value : JsonValue} {number read : Nat}
    (writes : WritesNumber value number) (run : hexQuantity field value = .ok read) :
    read = number := by
  obtain ⟨text, rfl, digits, stripped, spelled⟩ := writes
  obtain ⟨found, isFound, run⟩ := (bind_ok_iff _ _ _).mp run
  have sameDigits : digits = found := by
    have filtered := (orRevert_ok_iff _ _ _).mp isFound
    simp only [JsonValue.asString, Option.bind_some, stripped] at filtered
    exact Option.some.inj (Option.filter_eq_some_iff.mp filtered).1
  subst sameDigits
  exact u64FromHex_of_hexNumber spelled ((orRevert_ok_iff _ _ _).mp run)

/-! ## Values that describe a log -/

structure Describes (value : JsonValue) (log : RpcLog) : Prop where
  address : Writes (value.index "address") log.address
  topics : ∃ items, value.index "topics" = .array items ∧ List.Forall₂ Writes items log.topics
  data : Writes (value.index "data") log.data
  blockNumber : WritesNumber (value.index "blockNumber") log.blockNumber
  transactionHash : Writes (value.index "transactionHash") log.transactionHash
  logIndex : WritesNumber (value.index "logIndex") log.logIndex

theorem topics_eq {items : List JsonValue} {topics read : List String}
    (writes : List.Forall₂ Writes items topics)
    (run : (items.zipIdx.mapM fun (topic, index) => exactHex s!"topics[{index}]" topic 32) =
      .ok read) : read = topics := by
  obtain ⟨lengths, each⟩ := mapM_zipIdx_ok _ _ _ run
  apply List.ext_getElem (lengths.trans writes.length_eq)
  intro index inRead inTopics
  have inItems : index < items.length := lengths ▸ inRead
  obtain ⟨topic, atIndex, exact⟩ := each index items[index] (List.getElem?_eq_getElem inItems)
  have isTopic := (List.getElem?_eq_some_iff.mp atIndex).2
  rw [isTopic]
  exact (exactHex_ok exact).unique (writes.get inItems inTopics)

/-- A parsed value is the log that it describes. -/
theorem parseLog_describes {value : JsonValue} {log read : RpcLog}
    (describes : Describes value log) (run : parseLog value = .ok read) : read = log := by
  obtain ⟨items, isArray, writes⟩ := describes.topics
  unfold parseLog at run
  obtain ⟨_, -, run⟩ := (bind_ok_iff _ _ _).mp run
  obtain ⟨address, isAddress, run⟩ := (bind_ok_iff _ _ _).mp run
  obtain ⟨topicValues, isTopics, run⟩ := (bind_ok_iff _ _ _).mp run
  obtain ⟨_, -, run⟩ := (bind_ok_iff _ _ _).mp run
  obtain ⟨topics, topicRun, run⟩ := (bind_ok_iff _ _ _).mp run
  obtain ⟨data, isData, run⟩ := (bind_ok_iff _ _ _).mp run
  obtain ⟨blockNumber, isBlock, run⟩ := (bind_ok_iff _ _ _).mp run
  obtain ⟨transactionHash, isHash, run⟩ := (bind_ok_iff _ _ _).mp run
  obtain ⟨logIndex, isIndex, run⟩ := (bind_ok_iff _ _ _).mp run
  rw [← (pure_ok_iff _ _).mp run]
  have sameItems : topicValues = items := by
    rw [isArray] at isTopics
    exact (Except.ok.inj isTopics).symm
  subst sameItems
  have dataText : Writes (value.index "data") (toAsciiLowercase data.toList) := by
    have filtered := (Option.filter_eq_some_iff.mp ((orRevert_ok_iff _ _ _).mp isData)).1
    refine ⟨data, ?_, rfl⟩
    cases isText : value.index "data" <;> simp_all [JsonValue.asString]
  cases log
  simp only [RpcLog.mk.injEq]
  exact ⟨(exactHex_ok isAddress).unique describes.address, topics_eq writes topicRun,
    dataText.unique describes.data, hexQuantity_ok describes.blockNumber isBlock,
    (exactHex_ok isHash).unique describes.transactionHash,
    hexQuantity_ok describes.logIndex isIndex⟩

/-! ## What a filter selects -/

def TopicAllows : JsonValue → String → Prop
  | .null, _ => True
  | .string expected, topic => toAsciiLowercase expected.toList = topic
  | .array options, topic => ∃ option ∈ options, Writes option topic
  | _, _ => False

/-- The address, and at every position of the filter a topic that it allows. -/
structure Selects (filter : LogFilter) (log : RpcLog) : Prop where
  address : toAsciiLowercase filter.address.toList = log.address
  topics : ∀ (index : Nat) (expected : JsonValue), filter.topics[index]? = some expected →
    ∃ topic, log.topics[index]? = some topic ∧ TopicAllows expected topic

theorem canonicalTopicFilter_matches {value canonical : JsonValue} {index : Nat} (topic : String)
    (run : canonicalTopicFilter value index = .ok canonical) :
    topicMatches canonical topic = true ↔ TopicAllows value topic := by
  cases value with
  | null =>
      cases run
      simp [topicMatches, TopicAllows]
  | string text =>
      obtain ⟨lower, exact, run⟩ := (bind_ok_iff _ _ _).mp run
      rw [← (pure_ok_iff _ _).mp run]
      have same := (exactHex_ok exact).unique ⟨text, rfl, rfl⟩
      simp [topicMatches, TopicAllows, same]
  | array options =>
      rw [canonicalTopicFilter] at run
      split at run
      next bounded =>
        obtain ⟨topics, mapped, run⟩ := (bind_ok_iff _ _ _).mp run
        rw [← (pure_ok_iff _ _).mp run]
        obtain ⟨lengths, each⟩ := mapM_zipIdx_ok _ _ _ mapped
        have isMember : topicMatches (.array (topics.map .string)) topic = true ↔
            topic ∈ topics := by
          simp [topicMatches, JsonValue.asString]
        rw [isMember, TopicAllows]
        constructor
        · intro member
          obtain ⟨index, inside, isTopic⟩ := List.mem_iff_getElem.mp member
          have inOptions : index < options.length := lengths ▸ inside
          obtain ⟨found, atIndex, exact⟩ :=
            each index options[index] (List.getElem?_eq_getElem inOptions)
          have sameTopic := (List.getElem?_eq_some_iff.mp atIndex).2
          exact ⟨options[index], List.getElem_mem inOptions,
            isTopic ▸ sameTopic ▸ exactHex_ok exact⟩
        · rintro ⟨option, member, writes⟩
          obtain ⟨index, inside, rfl⟩ := List.mem_iff_getElem.mp member
          obtain ⟨found, atIndex, exact⟩ := each index _ (List.getElem?_eq_getElem inside)
          rw [writes.unique (exactHex_ok exact)]
          exact List.mem_of_getElem? atIndex
      next => cases run
  | bool => cases run
  | number => cases run
  | object => cases run

/-- The canonical filter takes the logs that the filter selects. -/
theorem selects_iff {filter canonical : LogFilter} (run : canonicalFilter filter = .ok canonical)
    (log : RpcLog) :
    log.address = canonical.address ∧ logMatchesFilter log canonical = true ↔
      Selects filter log := by
  obtain ⟨_, -, run⟩ := (bind_ok_iff _ _ _).mp run
  obtain ⟨address, isAddress, run⟩ := (bind_ok_iff _ _ _).mp run
  obtain ⟨topics, mapped, run⟩ := (bind_ok_iff _ _ _).mp run
  rw [← (pure_ok_iff _ _).mp run]
  have sameAddress := (exactHex_ok isAddress).unique ⟨_, rfl, rfl⟩
  obtain ⟨lengths, each⟩ := mapM_zipIdx_ok _ _ _ mapped
  have positions : logMatchesFilter log ⟨address, topics⟩ = true ↔
      ∀ (index : Nat) (expected : JsonValue), topics[index]? = some expected →
        ∃ topic, log.topics[index]? = some topic ∧ topicMatches expected topic = true := by
    simp only [logMatchesFilter, List.all_eq_true, Prod.forall, List.mem_zipIdx_iff_getElem?,
      Option.any_eq_true]
    constructor
    · exact fun all index expected atIndex => all expected index atIndex
    · exact fun all expected index atIndex => all index expected atIndex
  rw [positions]
  constructor
  · rintro ⟨isAt, all⟩
    refine ⟨sameAddress.symm.trans isAt.symm, ?_⟩
    intro index expected atIndex
    obtain ⟨canonical, found, canonicalRun⟩ := each index expected atIndex
    obtain ⟨topic, isTopic, matched⟩ := all index canonical found
    exact ⟨topic, isTopic, (canonicalTopicFilter_matches topic canonicalRun).mp matched⟩
  · rintro ⟨isAt, all⟩
    refine ⟨isAt.symm.trans sameAddress.symm, ?_⟩
    intro index canonical atIndex
    have inside : index < filter.topics.length :=
      lengths ▸ (List.getElem?_eq_some_iff.mp atIndex).1
    have given := List.getElem?_eq_getElem inside
    obtain ⟨found, atFound, canonicalRun⟩ := each index _ given
    cases atIndex.symm.trans atFound
    obtain ⟨topic, isTopic, allowed⟩ := all index _ given
    exact ⟨topic, isTopic, (canonicalTopicFilter_matches topic canonicalRun).mpr allowed⟩

end Usd8Core.Engine
