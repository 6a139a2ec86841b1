import Usd8Core.Engine.LogAnswers
import Usd8Core.Engine.LogScan
import Usd8Core.Lib.RangeWorklist

/-!
# A completed scan misses nothing

Every round of the inner loop answers the range on top of the stack or cuts it,
whatever the provider does, and spends budget.  With a canonical provider the
answers are exact, so the empty stack of a completed chunk leaves no gap.
-/

set_option autoImplicit false

namespace Usd8Core.Engine

open Usd8Core.Lib.ByteWords
open Usd8Core.Lib.CheckedCall
open Usd8Core.Lib.Json
open Usd8Core.Lib.OracleCall
open Usd8Core.Lib.RangeWorklist

/-! ## Canonical answers -/

section Provider

variable {σ : Type}

/-- A provider that may refuse any request.  A list of logs holds selected logs of the
range only, and all of them when it is below the cap; receipts are those of the block.
The answers about blocks themselves may be anything. -/
structure AnswersCanonically (client : RpcClient σ) (chain : LogChain) (filter : LogFilter)
    (resultCap : Nat) : Prop where
  logs : ∀ canonical, canonicalFilter filter = .ok canonical →
    ∀ fromBlock toBlock start values, fromBlock ≤ toBlock →
      (client.request "eth_getLogs" (logsParams canonical fromBlock toBlock) start).1 =
        .ok (.array values) →
      ∃ logs, List.Forall₂ Describes values logs ∧
        (∀ log ∈ logs, (chain.Has log ∧ Selects filter log) ∧
          fromBlock ≤ log.blockNumber ∧ log.blockNumber ≤ toBlock) ∧
        (values.length < resultCap → ∀ log, chain.Has log → Selects filter log →
          fromBlock ≤ log.blockNumber → log.blockNumber ≤ toBlock → log ∈ logs)
  receipts : ∀ block start items,
    (client.request "eth_getBlockReceipts" (blockReceiptsParams block) start).1 =
      .ok (.array items) →
    List.Forall₂ (fun receipt logs => ∃ values, receipt.index "logs" = .array values ∧
      List.Forall₂ Describes values logs) items (chain.receipts block)

end Provider

/-! ## Single calls -/

section Calls

variable {σ α : Type} {client : RpcClient σ}

/-- The call ends within its fuel, and with such a value where it ends with one. -/
abbrev Finishes (post : α → Prop) (call : Scan σ α) : Prop := Ends post (· ≠ .unfinished) call

theorem finishes_failWith {post : α → Prop} {error : RpcError} :
    Finishes post (failWith error : Scan σ α) :=
  ends_throw (by simp)

theorem finishes_ofRpc {result : Except RpcError α} :
    Finishes (fun value => result = .ok value) (ofRpc result : Scan σ α) := by
  apply ends_liftResult
  · intro value run
    cases result <;> simp_all [Except.mapError]
  · intro error run
    cases result <;> simp_all [Except.mapError]
    rw [← run]
    simp

theorem finishes_refuseIf (condition : Prop) [Decidable condition] (error : RpcError) :
    Finishes (fun _ => ¬ condition) (refuseIf condition error : Scan σ Unit) :=
  finishes_ofRpc.mono (fun _ run => (revertIf_ok_iff _ _ _).mp run) (fun _ => id)

theorem finishes_clock : Finishes (fun _ => True) client.clock := fun _ => trivial

theorem finishes_attempts : Finishes (fun _ => True) client.attempts := fun _ => trivial

theorem finishes_call (method : String) (params : JsonValue) :
    Finishes (fun answer => ∃ start, (client.request method params start).1 = .ok answer)
      (client.call method params) := by
  intro start
  rw [RpcClient.call, runFrom_ask]
  cases answered : client.request method params start with
  | mk answer last =>
      cases answer with
      | ok value => exact ⟨start, by rw [answered]⟩
      | error error => simp [Except.mapError]

theorem finishes_within {post : α → Prop} {call : Scan σ α} (remaining : Nat)
    (finishes : Finishes post call) :
    Finishes (fun fetched => ∀ value, fetched = .ok value → post value)
      (client.within remaining call) := by
  have asked : Finishes (fun _ => True)
      (ask fun start => ((client.expires remaining start).map .ok id) : Scan σ Bool) :=
    fun _ => trivial
  refine asked.bind fun expired _ => ends_ite (fun _ => finishes_failWith) fun _ => ?_
  refine finishes.attempt ?_ ?_
  · intro value holds other same
    cases same
    exact holds
  · intro error error' _ _ value impossible
    cases impossible

theorem finishes_remaining (chunkStarted : Nat) :
    Finishes (fun _ => True) (client.remaining chunkStarted) :=
  finishes_clock.bind fun _ _ => (finishes_refuseIf _ _).bind fun _ _ => ends_pure trivial

theorem finishes_fieldOf (object : List (String × JsonValue)) (key : String) :
    Finishes (fun _ => True) (fieldOf object key : Scan σ JsonValue) := by
  unfold fieldOf
  split
  · exact ends_pure trivial
  · exact ends_throw (by simp)

end Calls

/-! ## The two queries -/

section Queries

variable {σ : Type} {client : RpcClient σ} {chain : LogChain} {filter canonical : LogFilter}
  {resultCap : Nat}

/-- What is read of an answered range. -/
def LogPage (client : RpcClient σ) (canonical : LogFilter) (fromBlock toBlock : Nat)
    (logs : List RpcLog) : Prop :=
  ∃ start values,
    (client.request "eth_getLogs" (logsParams canonical fromBlock toBlock) start).1 =
      .ok (.array values) ∧ values.mapM (readLog canonical fromBlock toBlock) = .ok logs

/-- What is read of the receipts of a block. -/
def ReceiptPage (client : RpcClient σ) (canonical : LogFilter) (block : Nat)
    (logs : List RpcLog) : Prop :=
  ∃ start items blockHash hashes output,
    (client.request "eth_getBlockReceipts" (blockReceiptsParams block) start).1 =
      .ok (.array items) ∧ items.length = hashes.length ∧
    ((items.zip hashes).zipIdx.mapM fun ((receipt, hash), index) =>
      readReceipt canonical block blockHash index hash receipt) = .ok output ∧
    logs = output.flatten

theorem finishes_fetchLogs (fromBlock toBlock : Nat) :
    Finishes (LogPage client canonical fromBlock toBlock)
      (fetchLogs client canonical fromBlock toBlock) := by
  refine (finishes_call _ _).bind fun answer answered => ?_
  obtain ⟨start, answered⟩ := answered
  cases answer with
  | array values =>
      exact finishes_ofRpc.mono (fun logs run => ⟨start, values, answered, run⟩) (fun _ => id)
  | null => exact finishes_failWith
  | bool => exact finishes_failWith
  | number => exact finishes_failWith
  | string => exact finishes_failWith
  | object => exact finishes_failWith

theorem finishes_fetchBlockReceiptLogs (block : Nat) :
    Finishes (ReceiptPage client canonical block)
      (fetchBlockReceiptLogs client canonical block) := by
  refine (finishes_call _ _).bind fun _ _ => finishes_ofRpc.bind fun blockObject _ => ?_
  refine (finishes_fieldOf _ _).bind fun _ _ => finishes_ofRpc.bind fun _ _ => ?_
  refine finishes_ofRpc.bind fun _ _ => (finishes_fieldOf _ _).bind fun _ _ => ?_
  refine finishes_ofRpc.bind fun blockHash _ => (finishes_fieldOf _ _).bind fun _ _ => ?_
  refine finishes_ofRpc.bind fun _ _ => finishes_ofRpc.bind fun hashes _ => ?_
  refine finishes_ofRpc.bind fun _ _ => (finishes_call _ _).bind fun answer answered => ?_
  refine finishes_ofRpc.bind fun items isArray => finishes_ofRpc.bind fun _ counted => ?_
  refine finishes_ofRpc.bind fun output run => ends_pure ?_
  obtain ⟨start, answered⟩ := answered
  have sameAnswer : answer = .array items := by
    cases answer <;> simp_all [JsonValue.asArray, orRevert]
  rw [sameAnswer] at answered
  have sameLength : items.length = hashes.length := by
    simpa using (revertIf_ok_iff _ _ _).mp counted
  exact ⟨start, items, blockHash, hashes, output, answered, sameLength, run, rfl⟩

/-- A list of described values is read as the logs that they describe. -/
theorem read_eq {read : JsonValue → Except RpcError RpcLog}
    (parses : ∀ value log, read value = .ok log → parseLog value = .ok log)
    {values : List JsonValue} {described logs : List RpcLog}
    (describes : List.Forall₂ Describes values described) (run : values.mapM read = .ok logs) :
    logs = described := by
  have each := (mapM_ok_iff _ _ _).mp run
  apply List.ext_getElem (each.length_eq.symm.trans describes.length_eq)
  intro index inLogs inDescribed
  have inValues : index < values.length := describes.length_eq ▸ inDescribed
  exact parseLog_describes (describes.get inValues inDescribed)
    (parses _ _ (each.get inValues inLogs))

theorem readLog_parses {fromBlock toBlock : Nat} {value : JsonValue} {log : RpcLog}
    (run : readLog canonical fromBlock toBlock value = .ok log) : parseLog value = .ok log := by
  obtain ⟨parsed, parse, run⟩ := (bind_ok_iff _ _ _).mp run
  obtain ⟨_, -, run⟩ := (bind_ok_iff _ _ _).mp run
  obtain ⟨_, -, run⟩ := (bind_ok_iff _ _ _).mp run
  obtain ⟨_, -, run⟩ := (bind_ok_iff _ _ _).mp run
  rw [← (pure_ok_iff _ _).mp run]
  exact parse

theorem readReceiptLog_parses {block : Nat} {blockHash transactionHash : String}
    {value : JsonValue} {log : RpcLog}
    (run : readReceiptLog block blockHash transactionHash value = .ok log) :
    parseLog value = .ok log := by
  obtain ⟨_, -, run⟩ := (bind_ok_iff _ _ _).mp run
  obtain ⟨_, -, run⟩ := (bind_ok_iff _ _ _).mp run
  obtain ⟨parsed, parse, run⟩ := (bind_ok_iff _ _ _).mp run
  obtain ⟨_, -, run⟩ := (bind_ok_iff _ _ _).mp run
  rw [← (pure_ok_iff _ _).mp run]
  exact parse

/-- The logs that a scan is after. -/
def Wanted (chain : LogChain) (filter : LogFilter) (log : RpcLog) : Prop :=
  chain.Has log ∧ Selects filter log

/-- A page below the cap has everything of its range. -/
theorem logPage_collects (canonicalRun : canonicalFilter filter = .ok canonical)
    (answers : AnswersCanonically client chain filter resultCap) {fromBlock toBlock : Nat}
    {logs : List RpcLog} (order : fromBlock ≤ toBlock)
    (page : LogPage client canonical fromBlock toBlock logs) (small : logs.length < resultCap) :
    Collects (Wanted chain filter) RpcLog.blockNumber fromBlock (toBlock + 1) logs := by
  obtain ⟨start, values, answered, run⟩ := page
  obtain ⟨described, describes, sound, complete⟩ :=
    answers.logs canonical canonicalRun fromBlock toBlock start values order answered
  have same := read_eq (fun _ _ => readLog_parses) describes run
  subst same
  rw [← describes.length_eq] at small
  intro log
  constructor
  · intro member
    obtain ⟨wanted, above, below⟩ := sound log member
    exact ⟨wanted, above, Nat.lt_succ_of_le below⟩
  · rintro ⟨wanted, above, below⟩
    exact complete small log wanted.1 wanted.2 above (Nat.le_of_lt_succ below)

theorem readReceipt_ok {block index : Nat} {blockHash hash : String} {receipt : JsonValue}
    {values : List JsonValue} {described read : List RpcLog}
    (isArray : receipt.index "logs" = .array values)
    (describes : List.Forall₂ Describes values described)
    (run : readReceipt canonical block blockHash index hash receipt = .ok read) :
    read = described.filter fun log =>
      log.address = canonical.address ∧ logMatchesFilter log canonical := by
  obtain ⟨_, -, run⟩ := (bind_ok_iff _ _ _).mp run
  obtain ⟨_, -, run⟩ := (bind_ok_iff _ _ _).mp run
  obtain ⟨found, isFound, run⟩ := (bind_ok_iff _ _ _).mp run
  have sameValues : values = found := by
    rw [isArray] at isFound
    exact Except.ok.inj isFound
  obtain ⟨logs, mapped, run⟩ := (bind_ok_iff _ _ _).mp run
  rw [← sameValues] at mapped
  rw [← read_eq (fun _ _ => readReceiptLog_parses) describes mapped]
  exact ((pure_ok_iff _ _).mp run).symm

/-- The receipts of a block have everything of the block. -/
theorem receiptPage_collects (canonicalRun : canonicalFilter filter = .ok canonical)
    (answers : AnswersCanonically client chain filter resultCap) {block : Nat}
    {logs : List RpcLog} (page : ReceiptPage client canonical block logs) :
    Collects (Wanted chain filter) RpcLog.blockNumber block (block + 1) logs := by
  obtain ⟨start, items, blockHash, hashes, output, answered, counted, run, rfl⟩ := page
  have receipts := answers.receipts block start items answered
  obtain ⟨lengths, each⟩ := mapM_zipIdx_ok _ _ _ run
  have outputEq : output = (chain.receipts block).map fun logs => logs.filter fun log =>
      log.address = canonical.address ∧ logMatchesFilter log canonical := by
    apply List.ext_getElem
    · rw [lengths, List.length_zip, ← counted, Nat.min_self, List.length_map, receipts.length_eq]
    · intro index inOutput inReceipts
      rw [List.length_map] at inReceipts
      have inItems : index < items.length := receipts.length_eq ▸ inReceipts
      have inHashes : index < hashes.length := counted ▸ inItems
      have paired : (items.zip hashes)[index]? = some (items[index], hashes[index]) := by
        simp [inItems, inHashes]
      obtain ⟨read, atIndex, readRun⟩ := each index _ paired
      obtain ⟨values, isArray, describes⟩ := receipts.get inItems inReceipts
      rw [(List.getElem?_eq_some_iff.mp atIndex).2, List.getElem_map]
      exact readReceipt_ok isArray describes readRun
  intro log
  have inBlock := chain.has_iff block log
  have selected := selects_iff canonicalRun log
  have isMember : log ∈ output.flatten ↔ log ∈ (chain.receipts block).flatten ∧
      log.address = canonical.address ∧ logMatchesFilter log canonical = true := by
    rw [outputEq]
    simp only [List.mem_flatten, List.mem_map, exists_exists_and_eq_and, List.mem_filter,
      decide_eq_true_eq]
    constructor
    · rintro ⟨logs, receipt, member, taken⟩
      exact ⟨⟨logs, receipt, member⟩, taken⟩
    · rintro ⟨⟨logs, receipt, member⟩, taken⟩
      exact ⟨logs, receipt, member, taken⟩
  rw [isMember, inBlock, selected]
  constructor
  · rintro ⟨⟨has, rfl⟩, selects⟩
    exact ⟨⟨has, selects⟩, Nat.le_refl _, Nat.lt_succ_self _⟩
  · rintro ⟨⟨has, selects⟩, above, below⟩
    exact ⟨⟨has, by omega⟩, selects⟩

end Queries

/-! ## The loops -/

section Loops

variable {σ : Type} {client : RpcClient σ} {canonical : LogFilter} {resultCap : Nat}

def Chunk.work (chunk : Chunk) : Work RpcLog := ⟨chunk.pending, chunk.output⟩

/-- How a round answers a range: with a page below the cap, or from the receipts of the
single block. -/
def RangePage (client : RpcClient σ) (canonical : LogFilter) (resultCap lower upper : Nat)
    (logs : List RpcLog) : Prop :=
  LogPage client canonical lower upper logs ∧ logs.length < resultCap ∨
    lower = upper ∧ ReceiptPage client canonical lower logs

/-- What a round does with the range that was on top of the stack. -/
structure Round (client : RpcClient σ) (canonical : LogFilter) (resultCap : Nat)
    (chunk : Chunk) (lower upper : Nat) (next : Chunk) : Prop where
  inBudget : chunk.requests < MAX_LOG_REQUESTS_PER_CHUNK
  spent : chunk.requests < next.requests
  step : lower ≤ upper → Step (RangePage client canonical resultCap)
    ⟨(lower, upper) :: chunk.pending, chunk.output⟩ next.work

theorem finishes_scanBlock (chunkStarted : Nat) (chunk : Chunk) (block : Nat) :
    Finishes (fun result => result.1 = chunk.counted 2 ∧
        ReceiptPage client canonical block result.2)
      (scanBlock client canonical chunkStarted chunk block) := by
  refine (finishes_refuseIf _ _).bind fun _ _ => (finishes_remaining _).bind fun _ _ => ?_
  refine (finishes_within _ (finishes_fetchBlockReceiptLogs block)).bind fun fetched pages => ?_
  exact finishes_ofRpc.bind fun logs isFetched => ends_pure ⟨rfl, pages logs isFetched⟩

theorem finishes_bisect (chunk : Chunk) (lower upper : Nat) :
    Finishes (· = chunk.bisected lower upper) (bisect chunk lower upper : Scan σ Chunk) :=
  (finishes_refuseIf _ _).bind fun _ _ => ends_pure rfl

theorem step_bisected (chunk : Chunk) {lower upper : Nat} (order : lower < upper) :
    Step (RangePage client canonical resultCap)
      ⟨(lower, upper) :: chunk.pending, chunk.output⟩ (chunk.bisected lower upper).work :=
  .cut (by omega) (by omega)

theorem finishes_scanRange (chunkStarted attemptsStarted : Nat) (chunk : Chunk)
    (lower upper : Nat) :
    Finishes (Round client canonical resultCap chunk lower upper)
      (scanRange client canonical resultCap chunkStarted attemptsStarted chunk lower upper) := by
  refine (finishes_refuseIf _ _).bind fun _ inBudget => ?_
  refine (finishes_remaining _).bind fun _ _ => finishes_attempts.bind fun _ _ => ?_
  refine (finishes_refuseIf _ _).bind fun _ _ => ?_
  refine (finishes_within _ (finishes_fetchLogs lower upper)).bind fun fetched page => ?_
  refine finishes_attempts.bind fun _ _ => (finishes_refuseIf _ _).bind fun _ _ => ?_
  have inBudget := Nat.lt_of_not_le inBudget
  have spent : chunk.requests < chunk.requests + 1 := Nat.lt_succ_self _
  have spentTwice : chunk.requests < chunk.requests + 1 + 2 := by omega
  cases fetched with
  | error error =>
      refine ends_ite (fun single => ?_) fun _ => ends_ite (fun several => ?_) fun _ =>
        finishes_failWith
      · refine (finishes_scanBlock _ _ _).bind fun result scanned => ends_pure ?_
        refine ⟨inBudget, ?_, fun _ => ?_⟩
        · rw [scanned.1]
          exact spentTwice
        · rw [scanned.1]
          exact .take (.inr ⟨single.2, scanned.2⟩)
      · refine (finishes_bisect _ _ _).mono ?_ (fun _ => id)
        rintro _ rfl
        exact ⟨inBudget, spent, fun _ => step_bisected _ several.2⟩
  | ok logs =>
      refine ends_ite (fun _ => ends_ite (fun single => ?_) fun several => ?_) fun small => ?_
      · refine (finishes_scanBlock _ _ _).bind fun result scanned => ?_
        refine finishes_attempts.bind fun _ _ => (finishes_refuseIf _ _).bind fun _ _ => ?_
        refine ends_pure ⟨inBudget, ?_, fun _ => ?_⟩
        · rw [scanned.1]
          exact spentTwice
        · rw [scanned.1]
          exact .take (.inr ⟨single, scanned.2⟩)
      · refine (finishes_bisect _ _ _).mono ?_ (fun _ => id)
        rintro _ rfl
        exact ⟨inBudget, spent, fun order => step_bisected _ (Nat.lt_of_le_of_ne order several)⟩
      · refine ends_pure ⟨inBudget, spent, fun _ => .take (.inl ⟨page logs rfl, ?_⟩)⟩
        exact Nat.lt_of_not_le small

/-- The stack is worked off within the budget, without a gap. -/
theorem finishes_scanPending {first last : Nat} (chunkStarted attemptsStarted : Nat) :
    ∀ (fuel : Nat) (chunk : Chunk), MAX_LOG_REQUESTS_PER_CHUNK - chunk.requests < fuel →
      Scanned (RangePage client canonical resultCap) first last chunk.work →
        Finishes (fun done => Answered (RangePage client canonical resultCap) first (last + 1)
            done.output)
          (scanPending client canonical resultCap chunkStarted attemptsStarted fuel chunk) := by
  intro fuel
  induction fuel with
  | zero =>
      intro chunk enough
      omega
  | succ fuel ih =>
      intro chunk enough scanned
      rw [scanPending]
      split
      next empty => exact ends_pure (scanned.complete empty)
      next lower upper rest top =>
        rw [Chunk.work, top] at scanned
        refine (finishes_scanRange _ _ _ _ _).bind fun next round => ih next ?_ ?_
        · have inBudget := round.inBudget
          have spent := round.spent
          simp only at inBudget spent
          omega
        · exact scanned.step (round.step scanned.ordered)

/-- The chunks follow each other up to the last block, which may be the last there is. -/
theorem finishes_scanChunks {first toBlock maxRange chunkFuel : Nat} (inWord : toBlock ≤ maxU64)
    (chunkEnough : MAX_LOG_REQUESTS_PER_CHUNK < chunkFuel) :
    ∀ (fuel chunkStart : Nat) (metrics : LogMetrics) (output : List RpcLog),
      toBlock + 1 - chunkStart < fuel → chunkStart ≤ toBlock + 1 →
      Answered (RangePage client canonical resultCap) first chunkStart output →
        Finishes (fun result => Answered (RangePage client canonical resultCap) first
            (toBlock + 1) result.2)
          (scanChunks client canonical toBlock maxRange resultCap chunkFuel fuel chunkStart
            metrics output) := by
  intro fuel
  induction fuel with
  | zero =>
      intro chunkStart metrics output enough
      omega
  | succ fuel ih =>
      intro chunkStart metrics output enough inside answered
      rw [scanChunks]
      refine ends_ite (fun more => ?_) fun finished => ?_
      · have forward : chunkStart ≤ min (saturatingAdd chunkStart (maxRange - 1)) toBlock := by
          unfold saturatingAdd
          omega
        have within : min (saturatingAdd chunkStart (maxRange - 1)) toBlock ≤ toBlock :=
          Nat.min_le_right _ _
        refine finishes_clock.bind fun _ _ => finishes_attempts.bind fun _ _ => ?_
        refine (finishes_scanPending _ _ _ ⟨0, 0, metrics, _, output⟩ (by simpa using chunkEnough)
          (.start forward answered)).bind fun chunk scanned => ?_
        refine ends_ite (fun last => ends_pure ?_) fun _ => ih _ _ _ ?_ ?_ scanned
        · have isLast : min (saturatingAdd chunkStart (maxRange - 1)) toBlock = toBlock := by
            omega
          rw [isLast] at scanned
          exact scanned
        · omega
        · omega
      · have isEnd : chunkStart = toBlock + 1 := by omega
        rw [isEnd] at answered
        exact ends_pure answered

end Loops

/-! ## Order -/

section Order

theorem sortByPosition_perm (logs : List RpcLog) : (sortByPosition logs).Perm logs :=
  List.perm_insertionSort _ logs

theorem sortByPosition_pairwise (logs : List RpcLog) :
    (sortByPosition logs).Pairwise fun first second => ¬ second.Before first := by
  have total : Std.Total fun first second : RpcLog => ¬ second.Before first := by
    constructor
    intro first second
    simp only [RpcLog.Before]
    omega
  have transitive : IsTrans RpcLog fun first second => ¬ second.Before first := by
    constructor
    intro first second third
    simp only [RpcLog.Before]
    omega
  exact List.pairwise_insertionSort _ logs

theorem duplicatePosition_none : ∀ (logs : List RpcLog) (seen : List (Nat × Nat)),
    duplicatePosition seen logs = none →
      (∀ log ∈ logs, (log.blockNumber, log.logIndex) ∉ seen) ∧
        logs.Pairwise fun first second =>
          (first.blockNumber, first.logIndex) ≠ (second.blockNumber, second.logIndex) := by
  intro logs
  induction logs with
  | nil =>
      intro seen clean
      simp
  | cons log rest ih =>
      intro seen clean
      rw [duplicatePosition] at clean
      split at clean
      · cases clean
      next fresh =>
        obtain ⟨unseen, distinct⟩ := ih _ clean
        refine ⟨?_, List.pairwise_cons.mpr ⟨?_, distinct⟩⟩
        · intro other member
          rcases List.mem_cons.mp member with rfl | later
          · exact fresh
          · exact fun earlier => unseen other later (List.mem_cons_of_mem _ earlier)
        · intro other member same
          exact unseen other member (by simp [same])

/-- Sorted without duplicate positions is strictly increasing. -/
theorem sorted_strictly (logs : List RpcLog)
    (clean : duplicatePosition [] (sortByPosition logs) = none) :
    (sortByPosition logs).Pairwise RpcLog.Before := by
  have distinct := (duplicatePosition_none _ _ clean).2
  refine ((sortByPosition_pairwise logs).and distinct).imp ?_
  intro first second both
  obtain ⟨notAfter, different⟩ := both
  simp only [RpcLog.Before, ne_eq, Prod.mk.injEq] at notAfter different ⊢
  omega

end Order

/-! ## The scan -/

section Completeness

variable {σ : Type} {client : RpcClient σ} {chain : LogChain} {filter canonical : LogFilter}
  {fromBlock toBlock maxRange resultCap : Nat}

/-- Rounds enough for the budget of a chunk and for one chunk a block. -/
def scanFuel (fromBlock toBlock : Nat) : Nat :=
  max (MAX_LOG_REQUESTS_PER_CHUNK + 1) (toBlock + 2 - fromBlock)

theorem rangePage_collects (canonicalRun : canonicalFilter filter = .ok canonical)
    (answers : AnswersCanonically client chain filter resultCap) {lower upper : Nat}
    {logs : List RpcLog} (order : lower ≤ upper)
    (page : RangePage client canonical resultCap lower upper logs) :
    Collects (Wanted chain filter) RpcLog.blockNumber lower (upper + 1) logs := by
  rcases page with ⟨page, small⟩ | ⟨rfl, page⟩
  · exact logPage_collects canonicalRun answers order page small
  · exact receiptPage_collects canonicalRun answers page

/-- What a completed scan returns, whatever the provider answered. -/
inductive Result (client : RpcClient σ) (filter : LogFilter) (fromBlock toBlock resultCap : Nat) :
    List RpcLog → Prop
  | empty (none : toBlock < fromBlock) : Result client filter fromBlock toBlock resultCap []
  | scanned {canonical : LogFilter} {output : List RpcLog}
      (canonicalRun : canonicalFilter filter = .ok canonical)
      (answered : Answered (RangePage client canonical resultCap) fromBlock (toBlock + 1) output)
      (clean : duplicatePosition [] (sortByPosition output) = none) :
      Result client filter fromBlock toBlock resultCap (sortByPosition output)

theorem finishes_getLogsChunked (inWord : toBlock ≤ maxU64) {fuel : Nat}
    (enough : scanFuel fromBlock toBlock ≤ fuel) :
    Finishes (fun result => Result client filter fromBlock toBlock resultCap result.1)
      (getLogsChunked client fuel filter fromBlock toBlock maxRange resultCap) := by
  have enoughRounds : MAX_LOG_REQUESTS_PER_CHUNK + 1 ≤ fuel :=
    Nat.le_trans (Nat.le_max_left _ _) enough
  have enoughChunks : toBlock + 2 - fromBlock ≤ fuel := Nat.le_trans (Nat.le_max_right _ _) enough
  refine (finishes_refuseIf _ _).bind fun _ _ => finishes_ofRpc.bind fun canonical run => ?_
  refine ends_ite (fun none => ends_pure (.empty none)) fun some => ?_
  refine finishes_clock.bind fun _ _ => ?_
  refine (finishes_scanChunks inWord enoughRounds _ _ _ _ (by omega) (by omega) .nil).bind
    fun scanned answered => ?_
  obtain ⟨metrics, output⟩ := scanned
  simp only
  split
  · exact finishes_failWith
  next clean => exact finishes_clock.bind fun _ _ => ends_pure (.scanned run answered clean)

theorem Result.complete (answers : AnswersCanonically client chain filter resultCap)
    {logs : List RpcLog} (result : Result client filter fromBlock toBlock resultCap logs) :
    (∀ log, log ∈ logs ↔ Wanted chain filter log ∧
      fromBlock ≤ log.blockNumber ∧ log.blockNumber ≤ toBlock) ∧ logs.Pairwise RpcLog.Before := by
  cases result with
  | empty none =>
      refine ⟨fun log => ?_, .nil⟩
      simp only [List.not_mem_nil, false_iff, not_and]
      omega
  | scanned canonicalRun answered clean =>
      refine ⟨fun log => ?_, sorted_strictly _ clean⟩
      have collected := answered.collects fun _ _ _ => rangePage_collects canonicalRun answers
      rw [(sortByPosition_perm _).mem_iff, collected log, Nat.lt_succ_iff]

/-- The scan ends whatever the provider does.  With a canonical provider its result is
every selected log of the range, once, in the order of the chain. -/
theorem get_logs_chunked_complete (client : RpcClient σ) (filter : LogFilter)
    (fromBlock toBlock maxRange resultCap fuel : Nat) (inWord : toBlock ≤ maxU64)
    (enough : scanFuel fromBlock toBlock ≤ fuel) (start : σ) :
    (runFrom (getLogsChunked client fuel filter fromBlock toBlock maxRange resultCap) start).1 ≠
        .error .unfinished ∧
      ∀ chain, AnswersCanonically client chain filter resultCap → ∀ logs metrics,
        (runFrom (getLogsChunked client fuel filter fromBlock toBlock maxRange resultCap)
          start).1 = .ok (logs, metrics) →
        (∀ log, log ∈ logs ↔ (chain.Has log ∧ Selects filter log) ∧
            fromBlock ≤ log.blockNumber ∧ log.blockNumber ≤ toBlock) ∧
          logs.Pairwise RpcLog.Before ∧ logs.Nodup := by
  have finishes : Finishes (fun result => Result client filter fromBlock toBlock resultCap result.1)
      (getLogsChunked client fuel filter fromBlock toBlock maxRange resultCap) :=
    finishes_getLogsChunked inWord enough
  have ended := finishes start
  constructor
  · intro unfinished
    rw [unfinished] at ended
    exact ended rfl
  · intro chain answers logs metrics returned
    rw [returned] at ended
    obtain ⟨exact, ordered⟩ := Result.complete answers ended
    refine ⟨exact, ordered, ordered.imp ?_⟩
    rintro first _ before rfl
    simp [RpcLog.Before] at before

end Completeness

/-! ## A provider of one block per answer -/

namespace OneBlockProvider

def emitter : String := "0xaaaaaaaaaaaaaaaaaaaaaaaaaaaaaaaaaaaaaaaa"

def transactionHash : String :=
  "0xbbbbbbbbbbbbbbbbbbbbbbbbbbbbbbbbbbbbbbbbbbbbbbbbbbbbbbbbbbbbbbbb"

def logAt (block index : Nat) : RpcLog :=
  { address := emitter
    topics := []
    data := "0x"
    blockNumber := block
    transactionHash := transactionHash
    logIndex := index }

/-- One log, in the second block. -/
def logsOf (block : Nat) : List RpcLog :=
  if block = 2 then [logAt block 0] else []

theorem mem_logsOf {block : Nat} {log : RpcLog} (member : log ∈ logsOf block) :
    ∃ index, log = logAt block index := by
  unfold logsOf at member
  split at member
  · exact ⟨0, List.mem_singleton.mp member⟩
  · cases member

def chain : LogChain where
  receipts block := [logsOf block]
  placed block logs receipt log member := by
    rw [List.mem_singleton.mp receipt] at member
    obtain ⟨index, rfl⟩ := mem_logsOf member
    rfl

def encode (log : RpcLog) : JsonValue :=
  .object [("removed", .bool false), ("address", .string log.address), ("topics", .array []),
    ("data", .string log.data), ("blockNumber", .string (hexQuantityText log.blockNumber)),
    ("transactionHash", .string log.transactionHash),
    ("logIndex", .string (hexQuantityText log.logIndex)), ("blockHash", .string transactionHash)]

theorem lowercase_texts : toAsciiLowercase emitter.toList = emitter ∧
    toAsciiLowercase "0x".toList = "0x" ∧
    toAsciiLowercase transactionHash.toList = transactionHash := by
  decide +kernel

theorem describes_encode (block index : Nat) :
    Describes (encode (logAt block index)) (logAt block index) where
  address := ⟨emitter, rfl, lowercase_texts.1⟩
  topics := ⟨[], rfl, .nil⟩
  data := ⟨"0x", rfl, lowercase_texts.2.1⟩
  blockNumber := ⟨_, rfl, writesQuantity_hexQuantityText block⟩
  transactionHash := ⟨_, rfl, lowercase_texts.2.2⟩
  logIndex := ⟨_, rfl, writesQuantity_hexQuantityText index⟩

theorem describes_logsOf (block : Nat) :
    List.Forall₂ Describes ((logsOf block).map encode) (logsOf block) := by
  rw [List.forall₂_map_left_iff, List.forall₂_same]
  intro log member
  obtain ⟨index, rfl⟩ := mem_logsOf member
  exact describes_encode block index

def textOf (value : JsonValue) : List Char := (value.asString.bind strip0x).getD []

def numberOf (value : JsonValue) : Nat := (hexNumber (textOf value)).getD 0

def receipt (block : Nat) : JsonValue :=
  .object [("blockNumber", .string (hexQuantityText block)),
    ("blockHash", .string transactionHash), ("transactionIndex", .string "0x0"),
    ("transactionHash", .string transactionHash),
    ("logs", .array ((logsOf block).map encode))]

/-- Ranges of several blocks are refused. -/
def answer (method : String) (params : JsonValue) : Except RpcError JsonValue :=
  let first := (params.asArray.getD []).head?.getD .null
  if method = "eth_getLogs" then
    if numberOf (first.index "fromBlock") = numberOf (first.index "toBlock") then
      .ok (.array ((logsOf (numberOf (first.index "fromBlock"))).map encode))
    else .error (.responseTooLarge method 1024)
  else if method = "eth_getBlockByNumber" then
    .ok (.object [("number", first), ("hash", .string transactionHash),
      ("transactions", .array [.string transactionHash])])
  else .ok (.array [receipt (numberOf first)])

def client : RpcClient Unit where
  request method params start := (answer method params, start)
  transportAttempts start := (0, start)
  now start := (0, start)
  expires _ start := (false, start)

def filter : LogFilter := ⟨"0xAAAAAAAAAAAAAAAAAAAAAAAAAAAAAAAAAAAAAAAA", []⟩

theorem numberOf_hexQuantityText (value : Nat) :
    numberOf (.string (hexQuantityText value)) = value := by
  simp [numberOf, textOf, JsonValue.asString, strip0x, hexQuantityText, hexNumber_toDigits]

theorem selects_logAt (block index : Nat) : Selects filter (logAt block index) where
  address := by
    have lower : toAsciiLowercase filter.address.toList = emitter := by decide +kernel
    exact lower
  topics := by simp [filter]

theorem answer_logs (canonical : LogFilter) (fromBlock toBlock : Nat) :
    answer "eth_getLogs" (logsParams canonical fromBlock toBlock) =
      if fromBlock = toBlock then .ok (.array ((logsOf fromBlock).map encode))
      else .error (.responseTooLarge "eth_getLogs" 1024) := by
  have first : ((((logsParams canonical fromBlock toBlock).asArray.getD []).head?.getD
      .null).index "fromBlock") = .string (hexQuantityText fromBlock) := rfl
  have last : ((((logsParams canonical fromBlock toBlock).asArray.getD []).head?.getD
      .null).index "toBlock") = .string (hexQuantityText toBlock) := rfl
  simp only [answer, first, last, numberOf_hexQuantityText, if_true]

theorem answer_receipts (block : Nat) :
    answer "eth_getBlockReceipts" (blockReceiptsParams block) =
      .ok (.array [receipt block]) := by
  have first : (((blockReceiptsParams block).asArray.getD []).head?.getD .null) =
    .string (hexQuantityText block) := rfl
  simp [answer, first, numberOf_hexQuantityText]

theorem answersCanonically : AnswersCanonically client chain filter 1 where
  logs := by
    intro canonical _ fromBlock toBlock start values _ answered
    have answeredPure : answer "eth_getLogs" (logsParams canonical fromBlock toBlock) =
      .ok (.array values) := answered
    rw [answer_logs] at answeredPure
    split at answeredPure
    next single =>
      subst single
      cases answeredPure
      have inBlock (log : RpcLog) : log ∈ logsOf fromBlock ↔
          chain.Has log ∧ log.blockNumber = fromBlock := by
        simpa [chain] using chain.has_iff fromBlock log
      refine ⟨logsOf fromBlock, describes_logsOf fromBlock, ?_, ?_⟩
      · intro log member
        obtain ⟨has, placed⟩ := (inBlock log).mp member
        obtain ⟨index, rfl⟩ := mem_logsOf member
        exact ⟨⟨has, selects_logAt _ _⟩, Nat.le_of_eq placed.symm, Nat.le_of_eq placed⟩
      · intro _ log has _ above below
        exact (inBlock log).mpr ⟨has, Nat.le_antisymm below above⟩
    next => cases answeredPure
  receipts := by
    intro block start items answered
    have answeredPure : answer "eth_getBlockReceipts" (blockReceiptsParams block) =
      .ok (.array items) := answered
    rw [answer_receipts] at answeredPure
    cases answeredPure
    exact .cons ⟨_, rfl, describes_logsOf block⟩ .nil

def scan : Except ScanFailure (List RpcLog × LogMetrics) :=
  (runFrom (getLogsChunked client 4097 filter 1 2 5000 1) ()).1

theorem scan_eq : scan = .ok ([logAt 2 0], ⟨5, 1, 1, 0⟩) := by
  decide +kernel

/-- The range is refused, and the page of the second block is full. -/
theorem twoBlocks_scanned :
    scan = .ok ([logAt 2 0], ⟨5, 1, 1, 0⟩) ∧ scan ≠ .error .unfinished ∧
      ∀ log, log ∈ [logAt 2 0] ↔
        (chain.Has log ∧ Selects filter log) ∧ 1 ≤ log.blockNumber ∧ log.blockNumber ≤ 2 := by
  have complete := get_logs_chunked_complete client filter 1 2 5000 1 4097 (by decide)
    (by decide) ()
  exact ⟨scan_eq, complete.1, (complete.2 chain answersCanonically _ _ scan_eq).1⟩

end OneBlockProvider

end Usd8Core.Engine
