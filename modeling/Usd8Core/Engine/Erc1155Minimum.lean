import Usd8Core.Engine.HistoricalMinimum

/-!
# Minima of one id

The four queries of `min_erc1155_balance_over` are passes over the transfer logs of the
collection: each log is taken by the query of its event and side, and by two of them when
it comes back to its sender.  Then the minimum of either kind of token, in one statement.
-/

set_option autoImplicit false

namespace Usd8Core.Engine

open Std
open Usd8Core.Lib.BalanceHistory
open Usd8Core.Lib.ByteWords
open Usd8Core.Lib.CheckedCall
open Usd8Core.Lib.Json
open Usd8Core.Lib.Keccak256
open Usd8Core.Lib.KeyedTally
open Usd8Core.Lib.OracleCall

/-! ## Events -/

namespace Erc1155Event

variable {account : Address} {id : Nat}

def isBatch : Erc1155Event → Bool
  | single _ => false
  | batch _ => true

/-- What the event moves of an id in all. -/
def amountOf (id : Nat) (event : Erc1155Event) : Nat :=
  ((event.entries.filter fun entry => entry.1 = id).map Prod.snd).sum

theorem inflow_movesOf (event : Erc1155Event) : inflow account (event.movesOf id) =
    if event.recipient = account then event.amountOf id else 0 := by
  by_cases isRecipient : event.recipient = account
  · simp [inflow, movesOf, amountOf, isRecipient, List.filter_map, Function.comp_def]
  · simp [inflow, movesOf, isRecipient, List.filter_map, Function.comp_def]

theorem outflow_movesOf (event : Erc1155Event) : outflow account (event.movesOf id) =
    if event.sender = account then event.amountOf id else 0 := by
  by_cases isSender : event.sender = account
  · simp [outflow, movesOf, amountOf, isSender, List.filter_map, Function.comp_def]
  · simp [outflow, movesOf, isSender, List.filter_map, Function.comp_def]

end Erc1155Event

section Erc1155

variable {σ : Type} {client : RpcClient σ} {abi : AbiLibrary} {chain : LogChain}
  {collection account : Address} {history : Erc1155History chain collection} {resultCap : Nat}
  {fromBlock toBlock : Nat}

theorem topicHash_single_ne_batch :
    topicHash transferSingleSignature ≠ topicHash transferBatchSignature := by
  decide +kernel

def erc1155Signature (batch : Bool) : String :=
  if batch then transferBatchSignature else transferSingleSignature

theorem erc1155Signature_injective {first second : Bool}
    (same : topicHash (erc1155Signature first) = topicHash (erc1155Signature second)) :
    first = second := by
  cases first <;> cases second
  · rfl
  · exact absurd same topicHash_single_ne_batch
  · exact absurd same.symm topicHash_single_ne_batch
  · rfl

theorem Erc1155Event.head_topics {event : Erc1155Event} {log : RpcLog}
    (logged : event.Logged log) :
    log.topics.head? = some (topicHash (erc1155Signature event.isBatch)) := by
  cases event with
  | single event =>
      rw [logged.1]
      rfl
  | batch event =>
      rw [logged.1]
      rfl

/-- The signature of a log tells which of the two events it is. -/
theorem emittedAs_kind (history : Erc1155History chain collection) {log : RpcLog}
    (has : chain.Has log) (batch : Bool) :
    emittedAs collection [erc1155Signature batch] log = true ↔
      emittedAs collection [transferSingleSignature, transferBatchSignature] log = true ∧
        (history.transfer log).isBatch = batch := by
  have either : emittedAs collection [erc1155Signature batch] log = true →
      emittedAs collection [transferSingleSignature, transferBatchSignature] log = true := by
    simp only [emittedAs_iff]
    rintro ⟨address, signature, member, head⟩
    refine ⟨address, signature, ?_, head⟩
    rw [List.mem_singleton.mp member]
    cases batch <;> simp [erc1155Signature]
  constructor
  · intro emitted
    have head := Erc1155Event.head_topics (history.logged log has (either emitted))
    obtain ⟨-, signature, member, isHead⟩ := (emittedAs_iff _ _ _).mp emitted
    rw [List.mem_singleton.mp member] at isHead
    exact ⟨either emitted, erc1155Signature_injective (Option.some.inj (head.symm.trans isHead))⟩
  · rintro ⟨emitted, isKind⟩
    have head := Erc1155Event.head_topics (history.logged log has emitted)
    rw [isKind] at head
    exact (emittedAs_iff _ _ _).mpr
      ⟨((emittedAs_iff _ _ _).mp emitted).1, _, List.mem_singleton_self _, head⟩

/-- The topics after the signature. -/
theorem Erc1155History.topics (history : Erc1155History chain collection) {log : RpcLog}
    (has : chain.Has log)
    (emitted : emittedAs collection [transferSingleSignature, transferBatchSignature] log = true) :
    ∃ operator, log.topics.tail = [addressTopic operator,
      addressTopic (history.transfer log).sender, addressTopic (history.transfer log).recipient] := by
  have logged := history.logged log has emitted
  cases event : history.transfer log with
  | single single =>
      rw [event] at logged
      exact ⟨single.operator, by rw [logged.1]; rfl⟩
  | batch batch =>
      rw [event] at logged
      exact ⟨batch.operator, by rw [logged.1]; rfl⟩

/-- Whether a log is one of a query. -/
def Erc1155Query.Takes (query : Erc1155Query) (account : Address) (event : Erc1155Event) : Prop :=
  event.isBatch = query.batch ∧
    (if query.inflow then event.recipient else event.sender) = account

instance (query : Erc1155Query) (account : Address) (event : Erc1155Event) :
    Decidable (query.Takes account event) := inferInstanceAs (Decidable (_ ∧ _))

theorem wanted_query (history : Erc1155History chain collection) {query : Erc1155Query}
    (member : query ∈ erc1155Queries collection account) (id : Nat) (log : RpcLog) :
    Wanted chain query.filter log ↔ chain.Has log ∧ (history.ledger id).emits log = true ∧
      query.Takes account (history.transfer log) := by
  have skip (topic : String) : TopicAllows .null topic ↔ True := Iff.rfl
  refine and_congr_right fun has => ?_
  have topics := fun emitted => history.topics has emitted
  simp only [erc1155Queries, List.mem_cons, List.not_mem_nil, or_false] at member
  have outgoing (batch : Bool) : Selects ⟨addressHex collection,
      [.string (topicHash (erc1155Signature batch)), .null, .string (addressTopic account)]⟩ log ↔
      (history.ledger id).emits log = true ∧ (history.transfer log).isBatch = batch ∧
        (history.transfer log).sender = account := by
    rw [selects_signed, emittedAs_kind history has, and_assoc]
    refine and_congr_right fun emitted => and_congr_right fun _ => ?_
    obtain ⟨operator, isTopics⟩ := topics emitted
    simp [isTopics, TopicsAllow, topicAllows_addressTopic, skip]
  have incoming (batch : Bool) : Selects ⟨addressHex collection,
      [.string (topicHash (erc1155Signature batch)), .null, .null,
        .string (addressTopic account)]⟩ log ↔
      (history.ledger id).emits log = true ∧ (history.transfer log).isBatch = batch ∧
        (history.transfer log).recipient = account := by
    rw [selects_signed, emittedAs_kind history has, and_assoc]
    refine and_congr_right fun emitted => and_congr_right fun _ => ?_
    obtain ⟨operator, isTopics⟩ := topics emitted
    simp [isTopics, TopicsAllow, topicAllows_addressTopic, skip]
  rcases member with rfl | rfl | rfl | rfl
  · exact outgoing false
  · exact incoming false
  · exact outgoing true
  · exact incoming true

/-- What a query enters for a log. -/
def Erc1155Query.deltas (query : Erc1155Query) (id : Nat) (event : Erc1155Event) :
    List NetDelta :=
  if event.amountOf id ≠ 0 then
    [if query.inflow then ⟨event.amountOf id, 0⟩ else ⟨0, event.amountOf id⟩]
  else []

theorem erc1155Value_ok (standard : abi.Standard) {id value : Nat} {log : RpcLog}
    {event : Erc1155Event} (logged : event.Logged log)
    (run : erc1155Value abi id event.isBatch log = .ok value) : value = event.amountOf id := by
  cases event with
  | single event =>
      have decoded := standard.transferSingle event log logged
      simp only [erc1155Value, Erc1155Event.isBatch, Bool.false_eq_true, if_false, decodeEvent,
        decoded] at run
      rw [← Except.ok.inj run]
      by_cases isId : event.id = id <;> simp [Erc1155Event.amountOf, Erc1155Event.entries, isId]
  | batch event =>
      have decoded := standard.transferBatch event log logged
      simp only [erc1155Value, Erc1155Event.isBatch, if_true, decodeEvent, decoded] at run
      obtain ⟨_, isEvent, run⟩ := (bind_ok_iff _ _ _).mp run
      cases isEvent
      obtain ⟨_, -, run⟩ := (bind_ok_iff _ _ _).mp run
      exact ((pure_ok_iff _ _).mp run).symm

/-- The logs of one query are entered one by one. -/
theorem addErc1155Logs_ok (standard : abi.Standard) {id : Nat} {query : Erc1155Query}
    {next : Deltas} (logs : List RpcLog) (event : RpcLog → Erc1155Event)
    (logged : ∀ log ∈ logs, (event log).Logged log ∧ (event log).isBatch = query.batch)
    (deltas : Deltas)
    (run : logs.foldlM (addErc1155Log abi id query.inflow query.batch) deltas = .ok next) :
    next = enterAll deltas
      (entriesOf RpcLog.position logs fun log => query.deltas id (event log)) := by
  induction logs generalizing deltas with
  | nil => exact ((pure_ok_iff _ _).mp run).symm
  | cons log rest ih =>
      rw [List.foldlM_cons] at run
      obtain ⟨middle, first, run⟩ := (bind_ok_iff _ _ _).mp run
      obtain ⟨value, read, added⟩ := (bind_ok_iff _ _ _).mp first
      obtain ⟨isLogged, isKind⟩ := logged log List.mem_cons_self
      rw [← isKind] at read
      have isAmount := erc1155Value_ok standard isLogged read
      subst isAmount
      have entered : middle = enterAll deltas
          ((query.deltas id (event log)).map (Prod.mk log.position)) := by
        rw [← (pure_ok_iff _ _).mp added]
        by_cases nothing : (event log).amountOf id = 0
        · simp [Erc1155Query.deltas, nothing, enterAll]
        · simp [Erc1155Query.deltas, nothing, enterAll, addDelta]
      rw [ih (fun other member => logged other (List.mem_cons_of_mem _ member)) middle run, entered]
      exact List.foldl_append.symm

/-- Two lists in the order of the chain with the same logs are the same. -/
theorem ordered_ext {first second : List RpcLog} (ordered : first.Pairwise RpcLog.Before)
    (orderedToo : second.Pairwise RpcLog.Before) (same : ∀ log, log ∈ first ↔ log ∈ second) :
    first = second := by
  have irreflexive {log other : RpcLog} (before : log.Before other) : log ≠ other := by
    rintro rfl
    simp [RpcLog.Before] at before
  have perm : first.Perm second :=
    (List.perm_ext_iff_of_nodup (ordered.imp irreflexive) (orderedToo.imp irreflexive)).mpr same
  refine perm.eq_of_pairwise (fun log other _ _ before after => ?_) ordered orderedToo
  simp only [RpcLog.Before] at before after
  omega

theorem entriesOf_filter {K V I : Type} (key : I → K) (items : List I) (taken : I → Bool)
    (amounts : I → List V) : entriesOf key (items.filter taken) amounts =
      entriesOf key items fun item => if taken item then amounts item else [] := by
  induction items with
  | nil => rfl
  | cons item rest ih =>
      cases isTaken : taken item <;> simp_all [entriesOf]

/-- The transfer logs of the collection in the window. -/
def Erc1155History.window (history : Erc1155History chain collection) (id fromBlock toBlock : Nat) :
    List RpcLog :=
  chain.between (history.ledger id).emits (fromBlock + 1) (toBlock - fromBlock)

/-- What a query enters for a log of the window. -/
def Erc1155Query.pass (query : Erc1155Query) (account : Address) (id : Nat)
    (event : Erc1155Event) : List NetDelta :=
  if query.Takes account event then query.deltas id event else []

theorem yields_collectErc1155 (history : Erc1155History chain collection)
    (standard : abi.Standard) (ordered : chain.Ordered)
    (answers : ∀ filter, AnswersCanonically client chain filter resultCap) (maxRange id : Nat)
    (inWord : toBlock ≤ maxU64) (window : fromBlock < toBlock) (queries : List Erc1155Query)
    (known : ∀ query ∈ queries, query ∈ erc1155Queries collection account) (deltas : Deltas)
    (metrics : LogMetrics) :
    Yields (fun result => result.1 = enterAll deltas (queries.flatMap fun query =>
        entriesOf RpcLog.position (history.window id fromBlock toBlock) fun log =>
          query.pass account id (history.transfer log)))
      (collectErc1155 client abi id (fromBlock + 1) toBlock maxRange resultCap queries deltas
        metrics) := by
  induction queries generalizing deltas metrics with
  | nil => exact ends_pure rfl
  | cons query rest ih =>
      refine (yields_scanLogs _ _ _ _ inWord (answers _)).bind fun scanned isScanned => ?_
      refine (yields_result _).bind fun middle added => ?_
      have isQuery := known query List.mem_cons_self
      have logsEq : scanned.1 = (history.window id fromBlock toBlock).filter fun log =>
          query.Takes account (history.transfer log) := by
        refine ordered_ext isScanned.2 ((LogChain.between_pairwise ordered _ _).filter _) ?_
        intro log
        rw [isScanned.1 log, wanted_query history isQuery id, List.mem_filter,
          Erc1155History.window, LogChain.mem_between, decide_eq_true_eq]
        constructor
        · rintro ⟨⟨has, emitted, taken⟩, above, below⟩
          exact ⟨⟨has, emitted, above, by omega⟩, taken⟩
        · rintro ⟨⟨has, emitted, above, below⟩, taken⟩
          exact ⟨⟨has, emitted, taken⟩, above, by omega⟩
      have logged : ∀ log ∈ scanned.1, (history.transfer log).Logged log ∧
          (history.transfer log).isBatch = query.batch := by
        intro log member
        obtain ⟨has, emitted, taken⟩ :=
          (wanted_query history isQuery id log).mp ((isScanned.1 log).mp member).1
        exact ⟨history.logged log has emitted, taken.1⟩
      have entered := addErc1155Logs_ok standard scanned.1 history.transfer logged deltas added
      rw [logsEq, entriesOf_filter] at entered
      refine (ih (fun other member => known other (List.mem_cons_of_mem _ member)) middle _).mono
        (fun result isResult => ?_) fun _ _ => trivial
      rw [isResult, entered, List.flatMap_cons]
      simp only [Erc1155Query.pass, decide_eq_true_eq]
      exact List.foldl_append.symm

theorem passes_sum (event : Erc1155Event) (id : Nat) :
    ((erc1155Queries collection account).flatMap fun query => query.pass account id event).sum =
      ⟨inflow account (event.movesOf id), outflow account (event.movesOf id)⟩ := by
  rw [Erc1155Event.inflow_movesOf, Erc1155Event.outflow_movesOf]
  by_cases nothing : event.amountOf id = 0
  · simp [erc1155Queries, Erc1155Query.pass, Erc1155Query.deltas, nothing]
  · cases isKind : event.isBatch <;> by_cases isSender : event.sender = account <;>
      by_cases isRecipient : event.recipient = account <;>
        simp [erc1155Queries, Erc1155Query.pass, Erc1155Query.Takes, Erc1155Query.deltas, nothing,
          isKind, isSender, isRecipient]

/-- A log counts if it moves some of the id out of or into the account. -/
theorem passes_any (collection : Address) (event : Erc1155Event) (id : Nat) :
    (((erc1155Queries collection account).map fun query log => query.pass account id log).any
      fun amounts => amounts event ≠ []) = decide (event.amountOf id ≠ 0 ∧ event.Touches account) := by
  by_cases nothing : event.amountOf id = 0
  · simp [erc1155Queries, Erc1155Query.pass, Erc1155Query.deltas, nothing]
  · cases isKind : event.isBatch <;> by_cases isSender : event.sender = account <;>
      by_cases isRecipient : event.recipient = account <;>
        simp [erc1155Queries, Erc1155Query.pass, Erc1155Query.Takes, Erc1155Query.deltas, nothing,
          isKind, isSender, isRecipient, Erc1155Event.Touches]

/-- What the account held of the id in the window. -/
def Erc1155History.heldOver (history : Erc1155History chain collection) (id : Nat)
    (account : Address) (fromBlock toBlock : Nat) : Set Nat :=
  (history.ledger id).heldOver chain (fun account log => (history.transfer log).Touches account)
    account fromBlock toBlock

theorem Erc1155History.flow_of_not_counted {id : Nat} {log : RpcLog}
    (uncounted : ¬ ((history.transfer log).amountOf id ≠ 0 ∧ (history.transfer log).Touches account)) :
    inflow account ((history.ledger id).moves log) = 0 ∧
      outflow account ((history.ledger id).moves log) = 0 := by
  have moves : (history.ledger id).moves log = (history.transfer log).movesOf id := rfl
  rw [moves, Erc1155Event.inflow_movesOf, Erc1155Event.outflow_movesOf]
  by_cases nothing : (history.transfer log).amountOf id = 0
  · simp [nothing]
  · have untouched := not_and.mp uncounted nothing
    rw [Erc1155Event.Touches, not_or] at untouched
    simp [untouched.1, untouched.2]

/-- The deltas of all the queries: one for each log that counts. -/
theorem queries_toList (history : Erc1155History chain collection) (ordered : chain.Ordered)
    (id : Nat) :
    (enterAll (∅ : Deltas) ((erc1155Queries collection account).flatMap fun query =>
      entriesOf RpcLog.position (history.window id fromBlock toBlock) fun log =>
        query.pass account id (history.transfer log))).toList =
    ((history.window id fromBlock toBlock).filter fun log =>
      (history.transfer log).amountOf id ≠ 0 ∧ (history.transfer log).Touches account).map fun log =>
        (log.position, ⟨inflow account ((history.ledger id).moves log),
          outflow account ((history.ledger id).moves log)⟩) := by
  have listed := enterAll_passes_toList (history.window id fromBlock toBlock)
    ((erc1155Queries collection account).map fun query log =>
      query.pass account id (history.transfer log))
    ((LogChain.between_pairwise ordered _ _).imp before_iff.mp)
  simp only [List.flatMap_map, passes_sum] at listed
  rw [listed]
  congr 1
  refine List.filter_congr fun log _ => ?_
  rw [← passes_any collection (history.transfer log) id]
  simp [List.any_map]
  rfl

theorem yields_minErc1155BalanceOver (standard : abi.Standard) (ordered : chain.Ordered)
    {id : Nat} (valid : (history.ledger id).Valid chain) (balances : AnswersErc1155 client history)
    (answers : ∀ filter, AnswersCanonically client chain filter resultCap) (maxRange : Nat)
    (inWord : toBlock ≤ maxU64) (window : fromBlock < toBlock) :
    Yields (fun result => IsLeast (history.heldOver id account fromBlock toBlock) result.1)
      (minErc1155BalanceOver client abi collection account id fromBlock toBlock maxRange
        resultCap) := by
  refine (yields_erc1155BalanceOfAt standard valid balances).bind fun starting isStart => ?_
  refine ends_ite (fun none => absurd none (by omega)) fun _ => ?_
  refine (yields_result _).bind fun wanted isWord => ?_
  obtain ⟨rfl, -⟩ := bigToU256_ok isWord
  have all : ∀ query ∈ erc1155Queries collection account,
      query ∈ erc1155Queries collection account := fun _ => id
  refine (yields_collectErc1155 history standard ordered answers maxRange wanted inWord window _
    all ∅ .default).bind fun collected isCollected => ?_
  refine (yields_result _).bind fun replay run => ?_
  obtain ⟨minimum, replayed⟩ := replay
  rw [applyDeltas, isCollected, queries_toList history ordered, isStart] at run
  have least : IsLeast (history.heldOver wanted account fromBlock toBlock) minimum :=
    applyEntries_heldOver valid window.le
      (fun log untouched => Erc1155History.flow_of_not_counted fun counts => untouched counts.2) _
      (fun log uncounted => by
        have flow := Erc1155History.flow_of_not_counted (of_decide_eq_false uncounted)
        rw [flow.1, flow.2]) rfl run
  exact ends_true.bind fun _ _ => (yields_result _).bind fun _ _ => ends_pure least

end Erc1155

/-! ## Both kinds of token -/

section Minima

variable {σ : Type}

/-- Whenever a read of minima succeeds, every value is the least balance that its account
held in the window: whatever accounts were asked for with it, and for one account alone. -/
theorem historical_minimum (client : RpcClient σ) (abi : AbiLibrary) (standard : abi.Standard)
    (chain : LogChain) (ordered : chain.Ordered) (resultCap : Nat)
    (answers : ∀ filter, AnswersCanonically client chain filter resultCap)
    (fromBlock toBlock : Nat) (window : fromBlock < toBlock) (inWord : toBlock ≤ maxU64) :
    (∀ (token : Address) (history : Erc20History chain token), history.ledger.Valid chain →
      AnswersErc20 client history →
      (∀ accounts maxRange start minimums metrics,
        (runFrom (minBalancesOver client abi token accounts fromBlock toBlock maxRange resultCap)
          start).1 = .ok (minimums, metrics) →
        minimums.map Prod.fst = accounts.toList ∧
          ∀ entry ∈ minimums, IsLeast (history.heldOver entry.1 fromBlock toBlock) entry.2) ∧
      (∀ accounts others maxRange otherRange start otherStart minimums otherMinimums metrics
          otherMetrics,
        (runFrom (minBalancesOver client abi token accounts fromBlock toBlock maxRange resultCap)
          start).1 = .ok (minimums, metrics) →
        (runFrom (minBalancesOver client abi token others fromBlock toBlock otherRange resultCap)
          otherStart).1 = .ok (otherMinimums, otherMetrics) →
        ∀ account value otherValue, (account, value) ∈ minimums →
          (account, otherValue) ∈ otherMinimums → value = otherValue) ∧
      (∀ accounts account maxRange otherRange start otherStart minimums minimum metrics
          otherMetrics,
        (runFrom (minBalancesOver client abi token accounts fromBlock toBlock maxRange resultCap)
          start).1 = .ok (minimums, metrics) →
        (runFrom (minBalanceOver client abi token account fromBlock toBlock otherRange resultCap)
          otherStart).1 = .ok (minimum, otherMetrics) →
        ∀ value, (account, value) ∈ minimums → value = minimum)) ∧
    (∀ (collection : Address) (history : Erc1155History chain collection) (id : Nat),
      (history.ledger id).Valid chain → AnswersErc1155 client history →
      ∀ account maxRange start minimum metrics,
        (runFrom (minErc1155BalanceOver client abi collection account id fromBlock toBlock maxRange
          resultCap) start).1 = .ok (minimum, metrics) →
        IsLeast (history.heldOver id account fromBlock toBlock) minimum) := by
  constructor
  · intro token history valid balances
    have each (accounts : AccountSet) (maxRange : Nat) (start : σ)
        (minimums : List (Address × Nat)) (metrics : LogMetrics)
        (run : (runFrom (minBalancesOver client abi token accounts fromBlock toBlock maxRange
          resultCap) start).1 = .ok (minimums, metrics)) :
        List.Forall₂ (IsMinimum history fromBlock toBlock) accounts.toList minimums :=
      (yields_minBalancesOver standard ordered valid balances answers maxRange inWord
        window).value (Prod.ext run rfl)
    refine ⟨?_, ?_, ?_⟩
    · intro accounts maxRange start minimums metrics run
      have isMinimum := each _ _ _ _ _ run
      exact ⟨accounts_of_minimums isMinimum, fun entry member => least_of_mem isMinimum member⟩
    · intro accounts others maxRange otherRange start otherStart minimums otherMinimums metrics
        otherMetrics run otherRun account value otherValue member otherMember
      exact (least_of_mem (each _ _ _ _ _ run) member).unique
        (least_of_mem (each _ _ _ _ _ otherRun) otherMember)
    · intro accounts account maxRange otherRange start otherStart minimums minimum metrics
        otherMetrics run otherRun value member
      have single := (yields_minBalanceOver standard ordered valid balances answers otherRange inWord
        window).value (Prod.ext otherRun rfl)
      exact (least_of_mem (each _ _ _ _ _ run) member).unique single
  · intro collection history id valid balances account maxRange start minimum metrics run
    exact (yields_minErc1155BalanceOver standard ordered valid balances answers maxRange inWord
      window).value (Prod.ext run rfl)

end Minima

/-! ## A chain with two logs -/

namespace SmallHistory

def alice : Address := .ofNat 1

def bob : Address := .ofNat 2

def token : Address := .ofNat 100

def collection : Address := .ofNat 101

def transactionHash : String := hashHex Hash.zero

def logAt (index : Nat) (contract : Address) (signature : String) (addresses : List Address)
    (words : List Nat) : RpcLog :=
  { address := addressHex contract
    topics := topicHash signature :: addresses.map addressTopic
    data := wordsHex words
    blockNumber := 2
    transactionHash := transactionHash
    logIndex := index }

def payment : RpcLog := logAt 0 token transferSignature [alice, bob] [5]

def single : RpcLog := logAt 1 collection transferSingleSignature [alice, alice, bob] [1, 2]

/-- A payment, and a transfer of two of an id. -/
def logs : List RpcLog := [payment, single]

def logsOf (block : Nat) : List RpcLog := if block = 2 then logs else []

theorem placed_two {log : RpcLog} (member : log ∈ logs) : log.blockNumber = 2 := by
  simp only [logs, List.mem_cons, List.not_mem_nil, or_false] at member
  rcases member with rfl | rfl <;> rfl

theorem mem_logsOf {block : Nat} {log : RpcLog} :
    log ∈ logsOf block ↔ log ∈ logs ∧ log.blockNumber = block := by
  by_cases isTwo : block = 2
  · subst isTwo
    exact ⟨fun member => ⟨member, placed_two member⟩, And.left⟩
  · simp only [logsOf, if_neg isTwo, List.not_mem_nil, false_iff, not_and]
    exact fun member same => isTwo (same.symm.trans (placed_two member))

def chain : LogChain where
  receipts block := [logsOf block]
  placed block receipt isReceipt log member := by
    rw [List.mem_singleton.mp isReceipt] at member
    exact (mem_logsOf.mp member).2

theorem has_iff (log : RpcLog) : chain.Has log ↔ log ∈ logs := by
  have inBlock : chain.Has log ↔ log ∈ logsOf log.blockNumber := by
    rw [LogChain.Has, chain, List.flatten_singleton]
  rw [inBlock, mem_logsOf]
  exact and_iff_left rfl

theorem ordered : chain.Ordered := by
  intro block
  rw [chain, List.flatten_singleton]
  by_cases isTwo : block = 2
  · rw [logsOf, if_pos isTwo]
    exact List.pairwise_pair.mpr (.inr ⟨rfl, Nat.zero_lt_one⟩)
  · rw [logsOf, if_neg isTwo]
    exact .nil

theorem between_nil (emits : RpcLog → Bool) {first count : Nat}
    (without : ∀ block, first ≤ block → block < first + count → block ≠ 2) :
    chain.between emits first count = [] := by
  rw [LogChain.between, List.flatMap_eq_nil_iff]
  intro block inside
  rw [List.mem_range'_1] at inside
  simp [chain, logsOf, without block inside.1 inside.2]

/-- Before the third block there is nothing, then everything. -/
theorem between_eq (emits : RpcLog → Bool) (count : Nat) :
    chain.between emits 0 count = if count < 3 then [] else logs.filter emits := by
  split
  next few => exact between_nil emits (by omega)
  next many =>
    obtain ⟨more, rfl⟩ := Nat.exists_eq_add_of_le (Nat.le_of_not_lt many)
    rw [LogChain.between_append, between_nil emits (by omega : ∀ block, 0 + 3 ≤ block →
      block < 0 + 3 + more → block ≠ 2), List.append_nil]
    simp [LogChain.between, chain, logsOf, List.range'_succ]

def erc20Event (_ : RpcLog) : TransferEvent := ⟨alice, bob, 5⟩

def erc1155Event (_ : RpcLog) : Erc1155Event := .single ⟨alice, alice, bob, 1, 2⟩

theorem addressHex_ne : addressHex collection ≠ addressHex token := by
  decide +kernel

theorem filter_token : logs.filter (emittedAs token [transferSignature]) = [payment] := by
  have first : emittedAs token [transferSignature] payment = true := by
    simp [emittedAs_iff, payment, logAt]
  have second : emittedAs token [transferSignature] single = false := by
    simp [← Bool.not_eq_true, emittedAs_iff, single, logAt, addressHex_ne]
  simp [logs, first, second]

theorem filter_collection :
    logs.filter (emittedAs collection [transferSingleSignature, transferBatchSignature]) =
      [single] := by
  have first : emittedAs collection [transferSingleSignature, transferBatchSignature] payment =
      false := by
    simp [← Bool.not_eq_true, emittedAs_iff, payment, logAt, addressHex_ne.symm]
  have second : emittedAs collection [transferSingleSignature, transferBatchSignature] single =
      true := by
    simp [emittedAs_iff, single, logAt]
  simp [logs, first, second]

theorem areWords_small (words : List Nat) (small : ∀ word ∈ words, word < 1000) :
    AreWords words :=
  fun word member => (small word member).trans (by norm_num [uintBound])

def erc20 : Erc20History chain token where
  transfer := erc20Event
  genesis account := if account = alice then 8 else 0
  logged log has emitted := by
    have member := List.mem_filter.mpr ⟨(has_iff log).mp has, emitted⟩
    rw [filter_token] at member
    rw [List.mem_singleton.mp member]
    exact ⟨rfl, rfl, areWords_small _ (by decide)⟩

def erc1155 : Erc1155History chain collection where
  transfer := erc1155Event
  genesis _ account := if account = alice then 3 else 0
  logged log has emitted := by
    have member := List.mem_filter.mpr ⟨(has_iff log).mp has, emitted⟩
    rw [filter_collection] at member
    rw [List.mem_singleton.mp member]
    exact ⟨rfl, rfl, areWords_small _ (by decide)⟩

theorem alice_ne_zero : alice ≠ .zero := by decide

theorem bob_ne_zero : bob ≠ .zero := by decide

theorem bob_ne_alice : bob ≠ alice := by decide

/-- One covered log over small balances. -/
theorem valid_of {ledger : TokenLedger} {log : RpcLog} (only : logs.filter ledger.emits = [log])
    (starts : ∃ amount < 1000, ledger.genesis = fun account => if account = alice then amount else 0)
    (moves : Covered .zero ledger.genesis (ledger.moves log))
    (few : ∀ account, inflow account (ledger.moves log) < 1000) : ledger.Valid chain := by
  obtain ⟨amount, isSmall, isGenesis⟩ := starts
  have word : 2000 < uintBound 256 := by norm_num [uintBound]
  have start (account : Address) : ledger.genesis account < 1000 := by
    rw [isGenesis]
    dsimp only
    split <;> omega
  have nobody : ledger.genesis .zero = 0 := by
    rw [isGenesis]
    exact if_neg alice_ne_zero.symm
  refine ⟨nobody, fun block => ?_, fun block account => ?_⟩
  · rw [between_eq, only]
    have nothing (book : Address → Nat) : WellFormed .zero ledger.moves book [] := by
      intro before event occurs
      simp [Lib.EventLog.Occurs] at occurs
    split
    · exact nothing _
    · exact wellFormed_cons_iff.mpr ⟨moves, nothing _⟩
  · rw [TokenLedger.bookAt, between_eq, only]
    split
    · exact (start account).trans (by omega)
    · by_cases isZero : account = .zero
      · rw [isZero, bookAfter_void, nobody]
        omega
      · have flow := applyMoves_flow isZero (ledger.moves log) ledger.genesis moves
        have incoming := few account
        have before := start account
        simp only [bookAfter, List.foldl_cons, List.foldl_nil]
        omega

theorem erc20_valid : erc20.ledger.Valid chain := by
  refine valid_of filter_token ⟨8, by decide, rfl⟩ ⟨.inr (by decide), trivial⟩ fun account => ?_
  have none : inflow account ([] : List (Move Address)) = 0 := rfl
  rw [Erc20History.ledger, inflow_cons, none]
  by_cases isBob : bob = account <;> simp [erc20, erc20Event, isBob]

theorem erc1155_valid : (erc1155.ledger 1).Valid chain := by
  refine valid_of filter_collection ⟨3, by decide, rfl⟩ ?_ fun account => ?_
  · exact ⟨.inr (by decide), trivial⟩
  · simp only [erc1155, Erc1155History.ledger, Erc1155Event.inflow_movesOf]
    split
    · decide
    · omega

/-! A provider that serves what a filter selects, and balances from the ledgers. -/

def encode (log : RpcLog) : JsonValue :=
  .object [("removed", .bool false), ("address", .string log.address),
    ("topics", .array (log.topics.map .string)), ("data", .string log.data),
    ("blockNumber", .string (hexQuantityText log.blockNumber)),
    ("transactionHash", .string log.transactionHash),
    ("logIndex", .string (hexQuantityText log.logIndex))]

theorem describes_encode {log : RpcLog} (member : log ∈ logs) : Describes (encode log) log := by
  have text (index : Nat) (contract : Address) (signature : String) (addresses : List Address)
      (words : List Nat) : Describes (encode (logAt index contract signature addresses words))
        (logAt index contract signature addresses words) :=
    { address := ⟨_, rfl, toAsciiLowercase_bytesHex _⟩
      topics := ⟨_, rfl, by
        rw [List.forall₂_map_left_iff, List.forall₂_same]
        intro topic inTopics
        rcases List.mem_cons.mp inTopics with rfl | inAddresses
        · exact ⟨_, rfl, toAsciiLowercase_topicHash _⟩
        · obtain ⟨address, -, rfl⟩ := List.mem_map.mp inAddresses
          exact ⟨_, rfl, toAsciiLowercase_bytesHex _⟩⟩
      data := ⟨_, rfl, toAsciiLowercase_bytesHex _⟩
      blockNumber := ⟨_, rfl, writesQuantity_hexQuantityText _⟩
      transactionHash := ⟨_, rfl, toAsciiLowercase_bytesHex _⟩
      logIndex := ⟨_, rfl, writesQuantity_hexQuantityText _⟩ }
  simp only [logs, List.mem_cons, List.not_mem_nil, or_false] at member
  rcases member with rfl | rfl
  · exact text _ _ _ _ _
  · exact text _ _ _ _ _

def bytesOf (text : String) : List Nat := ((strip0x text).bind decodeHexPairs).getD []

theorem strip0x_bytesHex (bytes : List Byte) :
    strip0x (bytesHex bytes) = some (bytes.flatMap hexByte) := by
  simp [strip0x, bytesHex]

theorem bytesOf_bytesHex (bytes : List Byte) : bytesOf (bytesHex bytes) = bytes.map UInt8.toNat := by
  simp [bytesOf, strip0x_bytesHex, decodeHexPairs_flatMap_hexByte]

/-- The words that bytes are, 32 bytes each. -/
def readWords : Nat → List Nat → List Nat
  | 0, _ => []
  | count + 1, bytes => beValue (bytes.take 32) :: readWords count (bytes.drop 32)

theorem beValue_wordBytes {word : Nat} (fits : word < uintBound 256) :
    beValue ((wordBytes word).map UInt8.toNat) = word := by
  rw [wordBytes]
  rw [wordBound_eq] at fits
  exact beValue_beBytes 32 word fits

theorem readWords_encodeWords (words : List Nat) (areWords : AreWords words) :
    readWords words.length ((encodeWords words).map UInt8.toNat) = words := by
  induction words with
  | nil => rfl
  | cons word rest ih =>
      have first := areWords word List.mem_cons_self
      have later := ih fun other member => areWords other (List.mem_cons_of_mem _ member)
      have isLength : ((wordBytes word).map UInt8.toNat).length = 32 := by
        rw [List.length_map, wordBytes_length]
      rw [encodeWords_cons, List.map_append, List.length_cons, readWords,
        List.take_left' isLength, List.drop_left' isLength, later, beValue_wordBytes first]

def addressOf (topic : String) : Address := .ofNat (beValue (bytesOf topic))

theorem addressOf_addressTopic (address : Address) : addressOf (addressTopic address) = address := by
  apply Address.ext_val
  rw [addressOf, addressTopic, bytesOf_bytesHex, beValue_wordBytes address.val_lt_word]
  exact Nat.mod_eq_of_lt address.isLt

def dataWords (data : String) : List Nat := readWords ((bytesOf data).length / 32) (bytesOf data)

theorem dataWords_wordsHex {words : List Nat} (areWords : AreWords words) :
    dataWords (wordsHex words) = words := by
  have count : (encodeWords words).length / 32 = words.length := by
    rw [encodeWords_length]
    omega
  rw [dataWords, wordsHex, bytesOf_bytesHex, List.length_map, count, readWords_encodeWords _ areWords]

/-- A library that reads topics and words as they were written. -/
def abi : AbiLibrary where
  uint256 bytes := .ok (beValue bytes)
  transfer topics data :=
    match topics, dataWords data with
    | [_, sender, recipient], [value] => .ok ⟨addressOf sender, addressOf recipient, value⟩
    | _, _ => .error "type check failed"
  transferSingle topics data :=
    match topics, dataWords data with
    | [_, operator, sender, recipient], [id, value] =>
        .ok ⟨addressOf operator, addressOf sender, addressOf recipient, id, value⟩
    | _, _ => .error "type check failed"
  transferBatch topics data :=
    match topics, dataWords data with
    | [_, operator, sender, recipient], _ :: _ :: count :: words =>
        .ok ⟨addressOf operator, addressOf sender, addressOf recipient, words.take count,
          words.drop (count + 1)⟩
    | _, _ => .error "type check failed"

theorem abi_standard : abi.Standard where
  uint256 value fits := congrArg _ (beValue_wordBytes fits)
  transfer event log logged := by
    obtain ⟨topics, data, areWords⟩ := logged
    rw [topics, data]
    simp only [abi, dataWords_wordsHex areWords, addressOf_addressTopic]
  transferSingle event log logged := by
    obtain ⟨topics, data, areWords⟩ := logged
    rw [topics, data]
    simp only [abi, dataWords_wordsHex areWords, addressOf_addressTopic]
  transferBatch event log logged := by
    obtain ⟨topics, data, areWords⟩ := logged
    rw [topics, data]
    simp only [abi, dataWords_wordsHex areWords]
    simp [encodeArrays, addressOf_addressTopic]

/-- The logs of the range that the parameters of a request select. -/
def selected (params : JsonValue) : List RpcLog :=
  let query := (params.asArray.getD []).head?.getD .null
  let filter : LogFilter :=
    ⟨((query.index "address").asString).getD "", (query.index "topics").asArray.getD []⟩
  logs.filter fun log => log.address = filter.address ∧ logMatchesFilter log filter ∧
    OneBlockProvider.numberOf (query.index "fromBlock") ≤ log.blockNumber ∧
    log.blockNumber ≤ OneBlockProvider.numberOf (query.index "toBlock")

/-- The book after the two logs, if the block has them. -/
def bookOf (ledger : TokenLedger) (block : Nat) (log : RpcLog) : Address → Nat :=
  if block < 2 then ledger.genesis else applyMoves .zero ledger.genesis (ledger.moves log)

def balanceOf (call : JsonValue) (block : Nat) : Nat :=
  let bytes := (bytesOf ((call.index "data").asString.getD "")).drop 4
  let account := Address.ofNat (beValue (bytes.take 32))
  if (call.index "to").asString = some (addressHex token) then
    bookOf erc20.ledger block payment account
  else bookOf (erc1155.ledger (beValue (bytes.drop 32))) block single account

def answer (method : String) (params : JsonValue) : Except RpcError JsonValue :=
  let items := params.asArray.getD []
  if method = "eth_getLogs" then .ok (.array ((selected params).map encode))
  else if method = "eth_call" then .ok (.string (bytesHex (wordBytes
    (balanceOf (items.head?.getD .null)
      (OneBlockProvider.numberOf (items.tail.head?.getD .null))))))
  else .error (.transport method "no such method")

def client : RpcClient Unit where
  request method params start := (answer method params, start)
  transportAttempts start := (0, start)
  now start := (0, start)
  expires _ start := (false, start)

theorem selected_logsParams (canonical : LogFilter) (fromBlock toBlock : Nat) :
    selected (logsParams canonical fromBlock toBlock) = logs.filter fun log =>
      log.address = canonical.address ∧ logMatchesFilter log canonical ∧
        fromBlock ≤ log.blockNumber ∧ log.blockNumber ≤ toBlock := by
  obtain ⟨address, topics⟩ := canonical
  have first : ((((logsParams ⟨address, topics⟩ fromBlock toBlock).asArray.getD []).head?.getD
      .null).index "fromBlock") = .string (hexQuantityText fromBlock) := rfl
  have last : ((((logsParams ⟨address, topics⟩ fromBlock toBlock).asArray.getD []).head?.getD
      .null).index "toBlock") = .string (hexQuantityText toBlock) := rfl
  have emitter : ((((logsParams ⟨address, topics⟩ fromBlock toBlock).asArray.getD []).head?.getD
      .null).index "address") = .string address := rfl
  have filters : ((((logsParams ⟨address, topics⟩ fromBlock toBlock).asArray.getD []).head?.getD
      .null).index "topics").asArray.getD [] = topics := by
    cases topics with
    | nil => rfl
    | cons topic rest => rfl
  simp only [selected, first, last, emitter, filters, OneBlockProvider.numberOf_hexQuantityText,
    JsonValue.asString, Option.getD_some]

theorem answersCanonically (filter : LogFilter) (resultCap : Nat) :
    AnswersCanonically client chain filter resultCap where
  logs := by
    intro canonical canonicalRun fromBlock toBlock start values _ answered
    have answeredPure : answer "eth_getLogs" (logsParams canonical fromBlock toBlock) =
      .ok (.array values) := answered
    rw [answer, if_pos rfl, selected_logsParams] at answeredPure
    cases answeredPure
    refine ⟨logs.filter fun log => log.address = canonical.address ∧
      logMatchesFilter log canonical ∧ fromBlock ≤ log.blockNumber ∧ log.blockNumber ≤ toBlock,
      ?_, ?_, ?_⟩
    · rw [List.forall₂_map_left_iff, List.forall₂_same]
      exact fun log member => describes_encode (List.mem_of_mem_filter member)
    · intro log member
      obtain ⟨inLogs, taken⟩ := List.mem_filter.mp member
      obtain ⟨address, topics, above, below⟩ := of_decide_eq_true taken
      exact ⟨⟨(has_iff log).mpr inLogs, (selects_iff canonicalRun log).mp ⟨address, topics⟩⟩, above,
        below⟩
    · intro _ log has selects above below
      obtain ⟨address, topics⟩ := (selects_iff canonicalRun log).mpr selects
      exact List.mem_filter.mpr ⟨(has_iff log).mp has,
        decide_eq_true ⟨address, topics, above, below⟩⟩
  receipts := by
    intro block start items answered
    have answeredPure : answer "eth_getBlockReceipts" (blockReceiptsParams block) =
      .ok (.array items) := answered
    simp [answer] at answeredPure

theorem bytesOf_encodeCall (signature : String) (words : List Nat) :
    (bytesOf (bytesHex (encodeCall signature words))).drop 4 =
      (encodeWords words).map UInt8.toNat := by
  have selector : (((keccak256 (asciiBytes signature)).bytes.take 4).map UInt8.toNat).length = 4 := by
    rw [List.length_map, List.length_take, Hash.bytes_length]
    rfl
  rw [bytesOf_bytesHex, encodeCall, List.map_append, List.drop_left' selector]

theorem bookAt_eq {ledger : TokenLedger} {log : RpcLog} (only : logs.filter ledger.emits = [log])
    (block : Nat) : ledger.bookAt chain block = bookOf ledger block log := by
  rw [TokenLedger.bookAt, between_eq, only, bookOf]
  by_cases early : block < 2
  · rw [if_pos early, if_pos (by omega)]
    rfl
  · rw [if_neg early, if_neg (by omega)]
    rfl

theorem balanceOf_call (contract account : Address) (signature : String) (more : List Nat)
    (block : Nat) :
    balanceOf (.object [("to", .string (addressHex contract)),
      ("data", .string (bytesHex (encodeCall signature (account.val :: more))))]) block =
        if addressHex contract = addressHex token then bookOf erc20.ledger block payment account
        else bookOf (erc1155.ledger (beValue ((encodeWords more).map UInt8.toNat))) block single
          account := by
  have isLength : ((wordBytes account.val).map UInt8.toNat).length = 32 := by
    rw [List.length_map, wordBytes_length]
  have data (target : Address) (text : String) : (JsonValue.object [("to",
      .string (addressHex target)), ("data", .string text)]).index "data" = .string text := rfl
  have target (target : Address) (text : String) : (JsonValue.object [("to",
      .string (addressHex target)), ("data", .string text)]).index "to" =
      .string (addressHex target) := rfl
  have isAccount : Address.ofNat account.val = account :=
    Address.ext_val (Nat.mod_eq_of_lt account.isLt)
  simp only [balanceOf, data, target, JsonValue.asString, Option.getD_some, bytesOf_encodeCall,
    encodeWords_cons, List.map_append, List.take_left' isLength, List.drop_left' isLength,
    beValue_wordBytes account.val_lt_word, isAccount, Option.some.injEq]

theorem answer_ethCall (contract : Address) (data : List Byte) (block : Nat) :
    answer "eth_call" (ethCallParams contract data (some block)) =
      .ok (.string (bytesHex (wordBytes (balanceOf (.object [("to", .string (addressHex contract)),
        ("data", .string (bytesHex data))]) block)))) := by
  have tag : OneBlockProvider.numberOf (((ethCallParams contract data (some block)).asArray.getD
      []).tail.head?.getD .null) = block := OneBlockProvider.numberOf_hexQuantityText block
  rw [answer, if_neg (by decide), if_pos rfl, tag]
  rfl

theorem answersWord_of {contract : Address} {signature : String} {words : List Nat}
    {block result : Nat} (reads : balanceOf (.object [("to", .string (addressHex contract)),
      ("data", .string (bytesHex (encodeCall signature words)))]) block = result) :
    AnswersWord client contract signature words block result := by
  intro start value answered
  have answeredPure : answer "eth_call" (ethCallParams contract (encodeCall signature words)
    (some block)) = .ok value := answered
  rw [answer_ethCall, reads] at answeredPure
  cases answeredPure
  simp [JsonValue.asString, strip0x_bytesHex, decodeHexPairs_flatMap_hexByte]

theorem answersErc20 : AnswersErc20 client erc20 := fun account block => by
  rw [bookAt_eq filter_token]
  exact answersWord_of ((balanceOf_call ..).trans (if_pos rfl))

theorem answersErc1155 : AnswersErc1155 client erc1155 := by
  intro account id block fits
  have book : (erc1155.ledger id).bookAt chain block = bookOf (erc1155.ledger id) block single :=
    bookAt_eq filter_collection block
  rw [book]
  refine answersWord_of ((balanceOf_call ..).trans ?_)
  have isId : beValue ((encodeWords [id]).map UInt8.toNat) = id := by
    rw [encodeWords_cons, encodeWords_nil, List.append_nil, beValue_wordBytes fits]
  rw [if_neg addressHex_ne, isId]

def holders : AccountSet := TreeSet.ofList [bob, alice] compareAddress

theorem small_minimums :
    (runFrom (minBalancesOver client abi token holders 1 2 5000 1000) ()).1 =
      .ok ([(alice, 3), (bob, 0)], ⟨2, 0, 0, 0⟩) := by
  decide +kernel

theorem small_batch :
    (runFrom (minErc1155BalanceOver client abi collection alice 1 1 2 5000 1000) ()).1 =
      .ok (1, ⟨4, 0, 0, 0⟩) := by
  decide +kernel

/-- Alice pays 5 of 8 and then gives away 2 of the 3 that she has of an id. -/
theorem small_history_minima :
    IsLeast (erc20.heldOver alice 1 2) 3 ∧ IsLeast (erc20.heldOver bob 1 2) 0 ∧
      IsLeast (erc1155.heldOver 1 alice 1 2) 1 := by
  have minima := historical_minimum client abi abi_standard chain ordered 1000
    (fun filter => answersCanonically filter 1000) 1 2 (by decide) (by decide)
  have payments := minima.1 token erc20 erc20_valid answersErc20
  have each := (payments.1 holders 5000 () _ _ small_minimums).2
  have batch := minima.2 collection erc1155 1 erc1155_valid answersErc1155 alice 5000 () _ _
    small_batch
  exact ⟨each (alice, 3) (by simp), each (bob, 0) (by simp), batch⟩

end SmallHistory

end Usd8Core.Engine
