import Usd8Core.Checkpoint.TokenReplay

/-!
# Tokens that can be replayed further

An account of a token is sound when it is not ahead of the cursor and its open segment is
one of the token's rates.  Whatever the provider answers, a replay keeps the accounts sound,
and an account that is sound neither misses a rate nor is moved backward.
-/

set_option autoImplicit false

namespace Usd8Core.Checkpoint

open Std
open Usd8Core.Engine
open Usd8Core.Lib.ByteWords
open Usd8Core.Lib.CheckedCall
open Usd8Core.Lib.OracleCall
open Usd8Core.Lib.RangeWorklist
open Usd8Core.Score

/-! ## The ranges of a scan -/

section Ranges

variable {σ : Type} {client : RpcClient σ} {canonical filter : LogFilter}
  {fromBlock toBlock maxRange resultCap : Nat}

theorem rangePage_within {lower upper : Nat} {logs : List RpcLog} (order : lower ≤ upper)
    (page : RangePage client canonical resultCap lower upper logs) :
    ∀ log ∈ logs, lower ≤ log.blockNumber ∧ log.blockNumber ≤ upper := by
  intro log member
  rcases page with ⟨⟨start, values, -, run⟩, -⟩ |
    ⟨rfl, start, items, blockHash, hashes, output, -, -, run, rfl⟩
  · obtain ⟨value, -, read⟩ := exists_of_mapM_ok run member
    obtain ⟨parsed, -, read⟩ := (bind_ok_iff _ _ _).mp read
    obtain ⟨_, inside, read⟩ := (bind_ok_iff _ _ _).mp read
    obtain ⟨_, -, read⟩ := (bind_ok_iff _ _ _).mp read
    obtain ⟨_, -, read⟩ := (bind_ok_iff _ _ _).mp read
    cases (pure_ok_iff _ _).mp read
    have bounds := (revertIf_ok_iff _ _ _).mp inside
    omega
  · obtain ⟨logs, inOutput, inLogs⟩ := List.mem_flatten.mp member
    obtain ⟨⟨⟨receipt, hash⟩, index⟩, -, read⟩ := exists_of_mapM_ok run inOutput
    obtain ⟨_, -, read⟩ := (bind_ok_iff _ _ _).mp read
    obtain ⟨_, -, read⟩ := (bind_ok_iff _ _ _).mp read
    obtain ⟨values, -, read⟩ := (bind_ok_iff _ _ _).mp read
    obtain ⟨all, mapped, read⟩ := (bind_ok_iff _ _ _).mp read
    cases (pure_ok_iff _ _).mp read
    obtain ⟨value, -, logRead⟩ := exists_of_mapM_ok mapped (List.mem_filter.mp inLogs).1
    obtain ⟨_, -, logRead⟩ := (bind_ok_iff _ _ _).mp logRead
    obtain ⟨_, -, logRead⟩ := (bind_ok_iff _ _ _).mp logRead
    obtain ⟨parsed, -, logRead⟩ := (bind_ok_iff _ _ _).mp logRead
    obtain ⟨_, inBlock, logRead⟩ := (bind_ok_iff _ _ _).mp logRead
    cases (pure_ok_iff _ _).mp logRead
    have block := (revertIf_ok_iff _ _ _).mp inBlock
    omega

theorem Result.within {logs : List RpcLog}
    (result : Result client filter fromBlock toBlock resultCap logs) :
    ∀ log ∈ logs, fromBlock ≤ log.blockNumber ∧ log.blockNumber ≤ toBlock := by
  cases result with
  | empty none => simp
  | scanned canonicalRun answered clean =>
      intro log member
      have bounds := answered.within (fun _ _ _ => rangePage_within) log
        ((sortByPosition_perm _).mem_iff.mp member)
      omega

/-- A scan keeps to its range, whatever the provider answers. -/
theorem yields_scanLogs_within (filter : LogFilter) (inWord : toBlock ≤ maxU64) :
    Yields (fun result => ∀ log ∈ result.1,
        fromBlock ≤ log.blockNumber ∧ log.blockNumber ≤ toBlock)
      (scanLogs client filter fromBlock toBlock maxRange resultCap) :=
  ((finishes_getLogsChunked inWord (Nat.le_refl _)).mono (fun _ result => Result.within result)
    (fun _ _ => trivial)).mapFailure fun _ _ => trivial

/-- Transfers of the range in the order of their blocks. -/
structure InOrder (fromBlock toBlock : Nat) (transfers : List TokenTransfer) : Prop where
  inside : ∀ transfer ∈ transfers,
    fromBlock ≤ transfer.blockNumber ∧ transfer.blockNumber ≤ toBlock
  ordered : transfers.Pairwise fun first second => first.blockNumber ≤ second.blockNumber

variable {abi : AbiLibrary}

theorem decodeTransferLog_block {log : RpcLog} {transfer : TokenTransfer}
    (decoded : decodeTransferLog abi log = .ok transfer) :
    transfer.blockNumber = log.blockNumber := by
  obtain ⟨event, -, result⟩ := (bind_ok_iff _ _ _).mp decoded
  cases (pure_ok_iff _ _).mp result
  rfl

theorem yields_erc20Transfers_inOrder (token : Address) (inWord : toBlock ≤ maxU64) :
    Yields (fun result => InOrder fromBlock toBlock result.1)
      (erc20Transfers client abi token fromBlock toBlock maxRange resultCap) := by
  unfold erc20Transfers
  refine ends_ite (fun _ => ends_pure ⟨by simp, .nil⟩) fun _ => ?_
  refine (yields_scanLogs_within _ inWord).bind fun scanned within => ?_
  refine (yields_result _).bind fun transfers decoded => ends_pure ?_
  constructor
  · intro transfer member
    obtain ⟨log, isLog, read⟩ := exists_of_mapM_ok decoded (List.mem_mergeSort.mp member)
    rw [decodeTransferLog_block read]
    exact within log isLog
  · refine (List.pairwise_mergeSort ?_ ?_ transfers).imp fun {first second} le => ?_
    · intro first second third
      simp only [decide_eq_true_eq]
      omega
    · intro first second
      simp only [Bool.or_eq_true, decide_eq_true_eq]
      omega
    · rw [decide_eq_true_eq] at le
      omega

/-- The logs are in the range, each at its position. -/
def Placed (fromBlock toBlock : Nat) (unique : UniqueLogs) : Prop :=
  ∀ (position : Nat × Nat) (log : RpcLog), unique[position]? = some log →
    log.position = position ∧ fromBlock ≤ log.blockNumber ∧ log.blockNumber ≤ toBlock

theorem Placed.collect {unique next : UniqueLogs} {log : RpcLog}
    (placed : Placed fromBlock toBlock unique)
    (inside : fromBlock ≤ log.blockNumber ∧ log.blockNumber ≤ toBlock)
    (run : collectLog unique log = .ok next) : Placed fromBlock toBlock next := by
  obtain ⟨_, -, run⟩ := (bind_ok_iff _ _ _).mp run
  cases (pure_ok_iff _ _).mp run
  intro position other found
  rw [TreeMap.getElem?_insert] at found
  split at found
  next here =>
    cases found
    exact ⟨LawfulEqCmp.compare_eq_iff_eq.mp here, inside⟩
  next => exact placed position other found

theorem yields_collectBatches_placed (token : Address) (inWord : toBlock ≤ maxU64)
    (batches : List (List Address)) (unique : UniqueLogs) (metrics : LogMetrics)
    (placed : Placed fromBlock toBlock unique) :
    Yields (fun result => Placed fromBlock toBlock result.1)
      (collectBatches client token fromBlock toBlock maxRange resultCap batches unique metrics) := by
  induction batches generalizing unique metrics with
  | nil => exact ends_pure placed
  | cons batch rest ih =>
      rw [collectBatches]
      refine (yields_scanLogs_within _ inWord).bind fun outgoing isOutgoing => ?_
      refine (yields_scanLogs_within _ inWord).bind fun incoming isIncoming => ?_
      refine (yields_result _).bind fun middle first => (yields_result _).bind fun last second => ?_
      have placedMiddle := foldlM_preserves_mem _ (Placed fromBlock toBlock) _
        (fun log member _ _ holds step => holds.collect (isOutgoing log member) step) _ _ placed first
      have placedLast := foldlM_preserves_mem _ (Placed fromBlock toBlock) _
        (fun log member _ _ holds step => holds.collect (isIncoming log member) step) _ _
        placedMiddle second
      exact ih last _ placedLast

theorem yields_transfersForAccounts_inOrder (token : Address) (accounts : AccountSet)
    (inWord : toBlock ≤ maxU64) :
    Yields (fun result => InOrder fromBlock toBlock result.1)
      (erc20TransfersForAccounts client abi token accounts fromBlock toBlock maxRange resultCap) := by
  unfold erc20TransfersForAccounts
  refine ends_ite (fun _ => ends_pure ⟨by simp, .nil⟩) fun _ => ?_
  refine (yields_collectBatches_placed token inWord _ _ _ fun _ _ found => by simp at found).bind
    fun collected placed => ?_
  refine (yields_result _).bind fun transfers decoded => ends_pure ?_
  have each := (mapM_ok_iff _ _ _).mp decoded
  have isEntry {entry : (Nat × Nat) × RpcLog} (member : entry ∈ collected.1.toList) :=
    placed entry.1 entry.2 (TreeMap.mem_toList_iff_getElem?_eq_some.mp member)
  constructor
  · intro transfer member
    obtain ⟨entry, isLog, read⟩ := exists_of_mapM_ok decoded member
    rw [decodeTransferLog_block read]
    exact (isEntry isLog).2
  · rw [List.pairwise_iff_getElem]
    intro first second inFirst inSecond before
    have firstEntry : first < collected.1.toList.length := each.length_eq.symm ▸ inFirst
    have secondEntry : second < collected.1.toList.length := each.length_eq.symm ▸ inSecond
    have sorted := List.pairwise_iff_getElem.mp collected.1.ordered_keys_toList first second
      firstEntry secondEntry before
    change transfers[first].blockNumber ≤ transfers[second].blockNumber
    have firstBlock : transfers[first].blockNumber = collected.1.toList[first].2.blockNumber :=
      decodeTransferLog_block (each.get firstEntry inFirst)
    have secondBlock : transfers[second].blockNumber = collected.1.toList[second].2.blockNumber :=
      decodeTransferLog_block (each.get secondEntry inSecond)
    have one := (isEntry (List.getElem_mem firstEntry)).1
    have two := (isEntry (List.getElem_mem secondEntry)).1
    rw [← one, ← two, comparePosition_lt] at sorted
    simp only [RpcLog.position] at sorted
    omega

theorem yields_sliceTransfers_inOrder (token : Address) (tracked : Option AccountSet)
    (inWord : toBlock ≤ maxU64) :
    Yields (fun result => InOrder fromBlock toBlock result.1)
      (sliceTransfers client abi token tracked fromBlock toBlock maxRange resultCap) := by
  cases tracked with
  | none => exact yields_erc20Transfers_inOrder token inWord
  | some accounts => exact yields_transfersForAccounts_inOrder token accounts inWord

end Ranges

/-! ## Sound accounts -/

/-- The open segment is one of the rates, and nothing is integrated outside of one. -/
structure KnownSegment (rates : List RatePoint) (account : AccountScoreState) : Prop where
  known : ∀ fromBlock, account.activeSegmentFrom = some fromBlock →
    ∃ point ∈ rates, point.fromBlock = fromBlock
  idle : account.activeSegmentFrom = none → account.activeIntegral = 0

/-- The account is not ahead of the block either. -/
structure SoundAccount (rates : List RatePoint) (block : Nat) (account : AccountScoreState) : Prop
    extends KnownSegment rates account where
  behind : account.lastBlock ≤ block

section Accounts

variable {rates : List RatePoint} {decimals block toBlock : Nat} {account : AccountScoreState}

theorem KnownSegment.mono {more : List RatePoint} (sound : KnownSegment rates account)
    (kept : ∀ point ∈ rates, point ∈ more) : KnownSegment more account where
  known fromBlock isActive := by
    obtain ⟨point, member, starts⟩ := sound.known fromBlock isActive
    exact ⟨point, kept point member, starts⟩
  idle := sound.idle

theorem SoundAccount.mono {more : List RatePoint} (sound : SoundAccount rates block account)
    (kept : ∀ point ∈ rates, point ∈ more) (later : block ≤ toBlock) :
    SoundAccount more toBlock account where
  toKnownSegment := sound.toKnownSegment.mono kept
  behind := sound.behind.trans later

theorem fresh_sound (rates : List RatePoint) (block : Nat) :
    SoundAccount rates block (.fresh 0 0) where
  known fromBlock isActive := by cases isActive
  idle _ := rfl
  behind := Nat.zero_le block

theorem rateFor_known_segment (point : RatePoint) (member : point ∈ rates) :
    ∃ rate, rateFor rates point.fromBlock = .ok rate := by
  have found : (rates.find? fun other => other.fromBlock == point.fromBlock).isSome = true :=
    List.find?_isSome.mpr ⟨point, member, by simp⟩
  obtain ⟨other, isOther⟩ := Option.isSome_iff_exists.mp found
  exact ⟨other.rate, (orRevert_ok_iff _ _ _).mpr (by rw [isOther]; rfl)⟩

theorem finalizeActive_known (decimals : Nat) (sound : KnownSegment rates account) :
    ∃ next, finalizeActive account rates decimals = .ok next ∧ KnownSegment rates next := by
  unfold finalizeActive
  cases active : account.activeSegmentFrom with
  | none => exact ⟨account, rfl, sound⟩
  | some fromBlock =>
      obtain ⟨point, member, rfl⟩ := sound.known fromBlock active
      obtain ⟨rate, found⟩ := rateFor_known_segment point member
      refine ⟨_, (bind_ok_iff _ _ _).mpr ⟨rate, found, rfl⟩, ?_, fun _ => rfl⟩
      intro other isActive
      cases isActive

theorem openSegment_known (decimals fromBlock : Nat) (sound : KnownSegment rates account) :
    ∃ opened, (if account.activeSegmentFrom ≠ some fromBlock then do
          let state ← finalizeActive account rates decimals
          pure { state with activeSegmentFrom := some fromBlock, activeIntegral := 0 }
        else pure account : ScoreCall AccountScoreState) = .ok opened ∧
      opened.activeSegmentFrom = some fromBlock := by
  by_cases active : account.activeSegmentFrom = some fromBlock
  · exact ⟨account, by rw [if_neg (not_not.mpr active)]; rfl, active⟩
  · obtain ⟨closed, ran, -⟩ := finalizeActive_known decimals sound
    refine ⟨{ closed with activeSegmentFrom := some fromBlock, activeIntegral := 0 }, ?_, rfl⟩
    rw [if_pos active]
    exact (bind_ok_iff _ _ _).mpr ⟨closed, ran, rfl⟩

theorem advanceSegment_sound (decimals toBlock : Nat) {segment : RatePoint × Option Nat}
    (member : segment ∈ segments rates) (sound : KnownSegment rates account) :
    ∃ next, advanceSegment rates decimals toBlock account segment = .ok next ∧
      KnownSegment rates next := by
  unfold advanceSegment
  by_cases apart : overlapTo segment.2 toBlock ≤ max account.lastBlock segment.1.fromBlock
  · exact ⟨account, by simp only [if_pos apart]; rfl, sound⟩
  · obtain ⟨opened, openRun, active⟩ :=
      openSegment_known decimals segment.1.fromBlock sound
    have grown (integral : Nat) :
        KnownSegment rates { opened with activeIntegral := integral } := by
      constructor
      · intro fromBlock isActive
        cases active.symm.trans isActive
        exact ⟨segment.1, mem_of_segment member, rfl⟩
      · intro none
        cases active.symm.trans none
    simp only [if_neg apart]
    by_cases ended : (segment.2.any fun next =>
        overlapTo (some next) toBlock == next && decide (next ≤ toBlock)) = true
    · obtain ⟨next, closeRun, known⟩ := finalizeActive_known decimals (grown _)
      exact ⟨next, (bind_ok_iff _ _ _).mpr ⟨opened, openRun, (if_pos ended).trans closeRun⟩, known⟩
    · exact ⟨_, (bind_ok_iff _ _ _).mpr ⟨opened, openRun, if_neg ended⟩, grown _⟩

theorem advanceSegments_sound (decimals toBlock : Nat) (toVisit : List (RatePoint × Option Nat))
    (visits : ∀ segment ∈ toVisit, segment ∈ segments rates) (sound : KnownSegment rates account) :
    ∃ next, toVisit.foldlM (advanceSegment rates decimals toBlock) account = .ok next ∧
      KnownSegment rates next := by
  induction toVisit generalizing account with
  | nil => exact ⟨account, rfl, sound⟩
  | cons segment rest ih =>
      obtain ⟨middle, first, known⟩ :=
        advanceSegment_sound decimals toBlock (visits segment List.mem_cons_self) sound
      obtain ⟨next, run, knownNext⟩ :=
        ih (fun other member => visits other (List.mem_cons_of_mem _ member)) known
      exact ⟨next, by rw [List.foldlM_cons, first]; exact run, knownNext⟩

/-- An account that is not ahead of the block is moved there, where the rates are in order. -/
theorem advanceAccount_sound (sound : SoundAccount rates block account)
    (forward : block ≤ toBlock) :
    (advanceAccount account toBlock rates decimals = .error .ratesNotAscending) ∨
      ∃ next, advanceAccount account toBlock rates decimals = .ok next ∧
        SoundAccount rates toBlock next := by
  unfold advanceAccount validateRates
  by_cases ascending : Ascending rates
  · right
    have notBack : ¬ toBlock < account.lastBlock := Nat.not_lt.mpr (sound.behind.trans forward)
    by_cases same : toBlock = account.lastBlock
    · refine ⟨account, ?_, sound.toKnownSegment, same.ge⟩
      simp [revertIf, ascending, same, Bind.bind, Except.bind, pure, Except.pure]
    · obtain ⟨next, run, known⟩ :=
        advanceSegments_sound decimals toBlock (segments rates) (fun _ => id) sound.toKnownSegment
      refine ⟨{ next with lastBlock := toBlock }, ?_, ⟨known.known, known.idle⟩, Nat.le_refl _⟩
      simp [revertIf, ascending, notBack, same, run, Bind.bind, Except.bind, pure, Except.pure]
  · left
    simp only [revertIf, ascending, not_false_eq_true, if_true]
    rfl

/-- The errors of an account that is moved backward or whose segment has no rate. -/
inductive Broken : ScoreCoreError → Prop
  | backward (fromBlock toBlock : Nat) : Broken (.backward fromBlock toBlock)
  | missingRate (fromBlock : Nat) : Broken (.missingRate fromBlock)

theorem applyTransfer_sound (decimals inflow outflow : Nat) (sound : SoundAccount rates block account)
    (forward : block ≤ toBlock) :
    match applyTransfer account toBlock inflow outflow rates decimals with
    | .ok next => SoundAccount rates toBlock next
    | .error error => ¬ Broken error := by
  unfold applyTransfer
  rcases advanceAccount_sound sound forward with failed | ⟨next, ran, known⟩
  · rw [failed]
    intro broken
    cases broken
  · have changed (balance : Nat) : SoundAccount rates toBlock { next with balance := balance } :=
      ⟨⟨known.known, known.idle⟩, known.behind⟩
    simp only [ran, Bind.bind, Except.bind]
    by_cases grows : outflow ≤ inflow
    · rw [if_pos grows]
      exact changed _
    · rw [if_neg grows]
      by_cases short : next.balance < outflow - inflow
      · simp only [revertIf, if_pos short]
        intro broken
        cases broken
      · simp only [revertIf, if_neg short]
        exact changed _

end Accounts

/-! ## The messages of errors -/

/-- The error is not that an account was moved backward or missed a rate. -/
def Tolerable (error : CheckpointError) : Prop := ∀ broken, Broken broken → error ≠ core broken

theorem toString_text (text : String) : toString text = text := rfl

/-- The messages of broken accounts begin as no other message does. -/
theorem broken_message {error : ScoreCoreError} (broken : Broken error) :
    (scoreErrorText error).toList.take 2 = ['c', 'a'] ∨
      (scoreErrorText error).toList.take 2 = ['a', 'c'] := by
  unfold scoreErrorText
  cases broken with
  | backward fromBlock toBlock => simp [toString_text]
  | missingRate fromBlock => simp [toString_text]

theorem tolerable_invalid {message : String} (backward : message.toList.take 2 ≠ ['c', 'a'])
    (missingRate : message.toList.take 2 ≠ ['a', 'c']) : Tolerable (.invalid message) := by
  intro error broken same
  have text : message = scoreErrorText error := by
    cases same
    rfl
  rcases broken_message broken with starts | starts
  · exact backward (text ▸ starts)
  · exact missingRate (text ▸ starts)

theorem core_tolerable {error : ScoreCoreError} (whole : ¬ Broken error) :
    Tolerable (core error) := by
  unfold core scoreErrorText
  cases error with
  | ratesNotAscending => exact tolerable_invalid (by simp) (by simp)
  | backward fromBlock toBlock => exact absurd (.backward fromBlock toBlock) whole
  | missingRate fromBlock => exact absurd (.missingRate fromBlock) whole
  | balanceUnderflow block =>
      exact tolerable_invalid (by simp [toString_text]) (by simp [toString_text])

theorem outflowError_tolerable (address : Address) (block : Nat) {error : ScoreCoreError}
    (whole : ¬ Broken error) : Tolerable (outflowError address block error) := by
  cases error with
  | balanceUnderflow underflow =>
      exact tolerable_invalid (by simp [toString_text]) (by simp [toString_text])
  | ratesNotAscending => exact core_tolerable whole
  | backward => exact core_tolerable whole
  | missingRate => exact core_tolerable whole

/-! ## Sound tokens -/

def SoundAccounts (rates : List RatePoint) (block : Nat) (accounts : Accounts) : Prop :=
  ∀ (address : Address) account, accounts[address]? = some account → SoundAccount rates block account

section Tokens

variable {rates : List RatePoint} {decimals block toBlock : Nat} {accounts : Accounts}
  {tracked : Option AccountSet}

theorem SoundAccounts.mono {more : List RatePoint} (sound : SoundAccounts rates block accounts)
    (kept : ∀ point ∈ rates, point ∈ more) (later : block ≤ toBlock) :
    SoundAccounts more toBlock accounts :=
  fun address account found => (sound address account found).mono kept later

theorem SoundAccounts.insert (sound : SoundAccounts rates block accounts) {address : Address}
    {account : AccountScoreState} (isSound : SoundAccount rates block account) :
    SoundAccounts rates block (accounts.insert address account) := by
  intro other found isFound
  rw [TreeMap.getElem?_insert] at isFound
  split at isFound
  · cases isFound
    exact isSound
  · exact sound other found isFound

theorem SoundAccounts.entry (sound : SoundAccounts rates block accounts) (address : Address) :
    SoundAccount rates block (accounts[address]?.getD (.fresh 0 0)) := by
  cases found : accounts[address]? with
  | none => exact fresh_sound rates block
  | some account => exact sound address account found

/-- A call that leaves sound accounts or fails for another reason. -/
def KeepsSound (rates : List RatePoint) (block : Nat) (call : Except CheckpointError Accounts) :
    Prop :=
  match call with
  | .ok accounts => SoundAccounts rates block accounts
  | .error error => Tolerable error

theorem KeepsSound.bind {call : Except CheckpointError Accounts}
    {next : Accounts → Except CheckpointError Accounts} (keeps : KeepsSound rates block call)
    (follows : ∀ accounts, SoundAccounts rates block accounts →
      KeepsSound rates toBlock (next accounts)) :
    KeepsSound rates toBlock (call >>= next) := by
  cases call with
  | ok accounts => exact follows accounts keeps
  | error error => exact keeps

theorem applyTransferDelta_sound (address : Address) (value : Nat) (inflow : Bool)
    (sound : SoundAccounts rates block accounts) (forward : block ≤ toBlock) :
    KeepsSound rates toBlock
      (applyTransferDelta decimals rates tracked accounts address toBlock value inflow) := by
  have later := sound.mono (fun _ => id) forward
  unfold applyTransferDelta
  split
  · exact later
  · cases inflow with
    | true =>
        have applied := applyTransfer_sound decimals value 0 (sound.entry address) forward
        simp only [if_true]
        cases run : applyTransfer (accounts[address]?.getD (.fresh 0 0)) toBlock value 0 rates
            decimals with
        | ok account =>
            rw [run] at applied
            exact later.insert applied
        | error error =>
            rw [run] at applied
            exact core_tolerable applied
    | false =>
        have applied := applyTransfer_sound decimals 0 value (sound.entry address) forward
        simp only [Bool.false_eq_true, if_false]
        cases run : applyTransfer (accounts[address]?.getD (.fresh 0 0)) toBlock 0 value rates
            decimals with
        | ok account =>
            rw [run] at applied
            exact later.insert applied
        | error error =>
            rw [run] at applied
            exact outflowError_tolerable address toBlock applied

/-- Transfers in order keep the accounts sound. -/
theorem applyTransfers_sound (transfers : List TokenTransfer)
    (sound : SoundAccounts rates block accounts) (inOrder : InOrder block toBlock transfers)
    (forward : block ≤ toBlock) :
    KeepsSound rates toBlock (applyTransfers decimals rates tracked accounts transfers) := by
  induction transfers generalizing accounts block with
  | nil => exact sound.mono (fun _ => id) forward
  | cons transfer rest ih =>
      obtain ⟨after, ordered⟩ := List.pairwise_cons.mp inOrder.ordered
      have inside := inOrder.inside transfer List.mem_cons_self
      rw [applyTransfers, List.foldlM_cons]
      have applied : KeepsSound rates transfer.blockNumber
          (applyTokenTransfer decimals rates tracked accounts transfer) :=
        (applyTransferDelta_sound transfer.sender transfer.value false sound inside.1).bind
          fun middle soundMiddle =>
            applyTransferDelta_sound transfer.recipient transfer.value true soundMiddle
              (Nat.le_refl _)
      refine applied.bind fun middle soundMiddle => ih soundMiddle ⟨?_, ordered⟩ inside.2
      intro other member
      exact ⟨after other member, (inOrder.inside other (List.mem_cons_of_mem _ member)).2⟩

end Tokens

/-- The rates are in order, and the accounts are sound up to the cursor. -/
structure TokenState.Sound (token : TokenState) : Prop where
  ascending : Ascending token.rates
  accounts : SoundAccounts token.rates token.cursorBlock token.accounts

/-! ## The replay -/

section Replays

variable {σ : Type} {client : RpcClient σ} {abi : AbiLibrary} {scored : ScoredToken}
  {tracked : Option AccountSet} {decimals block targetBlock maxRange resultCap : Nat}

theorem ends_replaySlice_sound {slice : Nat × Nat} {replay : Replay}
    (sound : SoundAccounts scored.rates block replay.accounts) (forward : block ≤ slice.1)
    (order : slice.1 ≤ slice.2) (inWord : slice.2 ≤ maxU64) :
    Ends (fun next => SoundAccounts scored.rates slice.2 next.accounts) Tolerable
      (replaySlice client abi scored tracked decimals maxRange resultCap replay slice) := by
  have read : Ends (fun result => InOrder slice.1 slice.2 result.1) Tolerable
      (mapFailure .history
        (sliceTransfers client abi scored.token tracked slice.1 slice.2 maxRange resultCap)) :=
    (yields_sliceTransfers_inOrder _ _ inWord).mapFailure fun _ _ _ _ same => by cases same
  refine read.bind fun result inOrder => ?_
  have applied : KeepsSound scored.rates slice.2
      (applyTransfers decimals scored.rates tracked replay.accounts result.1) :=
    applyTransfers_sound result.1 (sound.mono (fun _ => id) forward) inOrder order
  have lifted : Ends (SoundAccounts scored.rates slice.2) Tolerable
      (liftResult (applyTransfers decimals scored.rates tracked replay.accounts result.1) :
        Asking σ CheckpointError Accounts) := by
    refine ends_liftResult (fun accounts run => ?_) fun error run => ?_
    · rw [run] at applied
      exact applied
    · rw [run] at applied
      exact applied
  exact lifted.bind fun accounts isSound => ends_pure isSound

/-- However often the loop visits its last slice. -/
theorem ends_replaySlices_sound (inWord : targetBlock ≤ maxU64) (fuel : Nat) {sliceFrom : Nat}
    {replay : Replay} (sound : SoundAccounts scored.rates block replay.accounts)
    (forward : block ≤ sliceFrom) (known : block ≤ targetBlock) :
    Ends (fun last => SoundAccounts scored.rates targetBlock last.accounts) Tolerable
      (replaySlices client abi scored tracked decimals targetBlock maxRange resultCap fuel sliceFrom
        replay) := by
  induction fuel generalizing block sliceFrom replay with
  | zero => exact ends_throw fun _ _ same => by cases same
  | succ fuel ih =>
      rw [replaySlices]
      refine ends_ite (fun inside => ?_) fun _ => ends_pure (sound.mono (fun _ => id) known)
      have order : sliceFrom ≤ sliceEnd targetBlock maxRange sliceFrom := by
        unfold sliceEnd saturatingAdd
        omega
      have within : sliceEnd targetBlock maxRange sliceFrom ≤ targetBlock := Nat.min_le_right ..
      have next : sliceEnd targetBlock maxRange sliceFrom ≤
          saturatingAdd (sliceEnd targetBlock maxRange sliceFrom) 1 := by
        unfold saturatingAdd
        omega
      exact (ends_replaySlice_sound sound forward order (within.trans inWord)).bind
        fun middle soundMiddle => ih soundMiddle next within

/-- A replay to a later block leaves a sound token, or fails for a reason of its own. -/
theorem ends_advanceToken_sound (fuel : Nat) {token : TokenState}
    (sound : SoundAccounts scored.rates token.cursorBlock token.accounts)
    (inWord : targetBlock ≤ maxU64) :
    Ends (fun result => (result.2.2 = token ∧ targetBlock = token.cursorBlock) ∨
        (result.2.2.cursorBlock = targetBlock ∧ token.cursorBlock < targetBlock ∧
          result.2.2.rates = scored.rates ∧ (∃ hash, result.2.2.cursorBlockHash = hashHex hash) ∧
          SoundAccounts scored.rates targetBlock result.2.2.accounts)) Tolerable
      (advanceToken client abi scored tracked fuel token targetBlock maxRange resultCap) := by
  have refused {condition : Prop} [Decidable condition] {message : String}
      (backward : message.toList.take 2 ≠ ['c', 'a'])
      (missingRate : message.toList.take 2 ≠ ['a', 'c']) :
      Ends (fun _ => ¬ condition) Tolerable
        (liftResult (revertIf condition (.invalid message)) :
          Asking σ CheckpointError Unit) := by
    refine ends_liftResult (fun _ run => (revertIf_ok_iff _ _ _).mp run) fun error run => ?_
    unfold revertIf at run
    split at run
    · cases run
      exact tolerable_invalid backward missingRate
    · cases run
  unfold advanceToken
  refine (refused (by simp [toString_text]) (by simp [toString_text])).bind fun _ notAhead => ?_
  refine ends_ite (fun same => ends_pure (.inl ⟨rfl, same⟩)) fun differ => ?_
  refine (refused (by simp) (by simp)).bind fun _ _ => ?_
  have behind : token.cursorBlock ≤ targetBlock := Nat.not_lt.mp notAhead
  refine (ends_replaySlices_sound inWord fuel sound (Nat.le_succ _) behind).bind
    fun replay isSound => ?_
  have anchored : Ends (fun _ => True) Tolerable
      (mapFailure .anchor (blockByNumber client targetBlock)) :=
    ends_true.mapFailure fun _ _ _ _ same => by cases same
  refine anchored.bind fun anchor _ => ends_pure (.inr ?_)
  exact ⟨rfl, Nat.lt_of_le_of_ne behind (Ne.symm differ), rfl, ⟨anchor.hash, rfl⟩, isSound⟩

end Replays

end Usd8Core.Checkpoint
