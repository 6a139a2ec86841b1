import Usd8Core.Engine.Erc1155Minimum
import Usd8Core.Engine.SettlementAnchors
import Usd8Core.Lib.RangeSlices
import Usd8Core.Score.ScoreCore

/-!
# Replaying the transfers of a token

`advance_token` brings the accounts of a token from its cursor to a later block, slice after
slice.  Up to the last but one block that a cursor can have, the slices are a partition of
the blocks after the cursor, and each transfer is applied once, in the order of the chain.
-/

set_option autoImplicit false

namespace Usd8Core.Checkpoint

open Std
open Usd8Core.Engine
open Usd8Core.Lib.ByteWords
open Usd8Core.Lib.CheckedCall
open Usd8Core.Lib.OracleCall
open Usd8Core.Lib.RangeSlices
open Usd8Core.Score

/-! ## State -/

structure ScoredToken where
  token : Address
  decimals : Nat
  rates : List RatePoint

abbrev Accounts := TreeMap Address AccountScoreState compareAddress

structure TokenState where
  decimals : Nat
  cursorBlock : Nat
  cursorBlockHash : String
  rates : List RatePoint
  accounts : Accounts

inductive CheckpointError where
  | history (error : HistoryError)
  | anchor (error : AnchorError)
  | invalid (message : String)
  /-- The fuel of the model ran out. -/
  | unfinished
  deriving DecidableEq

/-- `error.to_string()` -/
def scoreErrorText : ScoreCoreError → String
  | .ratesNotAscending => "score rate history must be strictly ascending"
  | .backward fromBlock toBlock => s!"cannot move score account backward from {fromBlock} to {toBlock}"
  | .missingRate fromBlock => s!"active score rate segment {fromBlock} is absent from rate history"
  | .balanceUnderflow block => s!"score transfer produces a negative balance at block {block}"

def core (error : ScoreCoreError) : CheckpointError := .invalid (scoreErrorText error)

def outflowError (address : Address) (block : Nat) : ScoreCoreError → CheckpointError
  | .balanceUnderflow _ => .invalid
      s!"Transfer index produced negative balance for {addressHex address} at block {block}"
  | other => core other

section Deltas

variable (decimals : Nat) (rates : List RatePoint) (tracked : Option AccountSet)

/-- `apply_transfer_delta` on the accounts of a token.  An error leaves a token that is dropped. -/
def applyTransferDelta (accounts : Accounts) (address : Address) (block value : Nat)
    (inflow : Bool) : Except CheckpointError Accounts :=
  if address = .zero ∨ tracked.any (¬ ·.contains address) then pure accounts
  else do
    let account := accounts[address]?.getD (.fresh 0 0)
    let account ← (if inflow then
        (applyTransfer account block value 0 rates decimals).mapError core
      else (applyTransfer account block 0 value rates decimals).mapError
        (outflowError address block))
    pure (accounts.insert address account)

/-- What the loop over the transfers does with one of them. -/
def applyTokenTransfer (accounts : Accounts) (transfer : TokenTransfer) :
    Except CheckpointError Accounts := do
  let accounts ← applyTransferDelta decimals rates tracked accounts transfer.sender
    transfer.blockNumber transfer.value false
  applyTransferDelta decimals rates tracked accounts transfer.recipient transfer.blockNumber
    transfer.value true

def applyTransfers (accounts : Accounts) (transfers : List TokenTransfer) :
    Except CheckpointError Accounts :=
  transfers.foldlM (applyTokenTransfer decimals rates tracked) accounts

end Deltas

/-! ## Slices -/

/-- The last block of the slice that starts at `sliceFrom`. -/
def sliceEnd (targetBlock maxRange sliceFrom : Nat) : Nat :=
  min (saturatingAdd sliceFrom (maxRange - 1)) targetBlock

/-- The slices that the loop visits, where it ends. -/
def sliceLoop (targetBlock maxRange : Nat) : Nat → Nat → Option (List (Nat × Nat))
  | 0, _ => none
  | fuel + 1, sliceFrom =>
      if sliceFrom ≤ targetBlock then
        (sliceLoop targetBlock maxRange fuel
          (saturatingAdd (sliceEnd targetBlock maxRange sliceFrom) 1)).map
            ((sliceFrom, sliceEnd targetBlock maxRange sliceFrom) :: ·)
      else some []

structure Replay where
  accounts : Accounts
  indexedTransfers : Nat
  metrics : LogMetrics

section Advance

variable {σ : Type} (client : RpcClient σ) (abi : AbiLibrary)

def transferFilter (token : Address) : LogFilter :=
  ⟨addressHex token, [.string (topicHash transferSignature)]⟩

def erc20Transfers (token : Address) (fromBlock toBlock maxRange resultCap : Nat) :
    Reading σ (List TokenTransfer × LogMetrics) :=
  if toBlock < fromBlock then pure ([], .default)
  else do
    let (logs, metrics) ← scanLogs client (transferFilter token) fromBlock toBlock maxRange resultCap
    let transfers ← liftResult (logs.mapM (decodeTransferLog abi))
    let transfers := transfers.mergeSort fun first second =>
      first.blockNumber < second.blockNumber ∨
        first.blockNumber = second.blockNumber ∧ first.logIndex ≤ second.logIndex
    pure (transfers, metrics)

/-- The transfers of a slice, of the tracked accounts where there are such. -/
def sliceTransfers (token : Address) (tracked : Option AccountSet)
    (fromBlock toBlock maxRange resultCap : Nat) : Reading σ (List TokenTransfer × LogMetrics) :=
  match tracked with
  | some accounts =>
      erc20TransfersForAccounts client abi token accounts fromBlock toBlock maxRange resultCap
  | none => erc20Transfers client abi token fromBlock toBlock maxRange resultCap

variable (scored : ScoredToken) (tracked : Option AccountSet) (decimals : Nat)

/-- One iteration of the loop. -/
def replaySlice (maxRange resultCap : Nat) (replay : Replay) (slice : Nat × Nat) :
    Asking σ CheckpointError Replay := do
  let (transfers, metrics) ← mapFailure .history
    (sliceTransfers client abi scored.token tracked slice.1 slice.2 maxRange resultCap)
  let accounts ← liftResult (applyTransfers decimals scored.rates tracked replay.accounts transfers)
  pure ⟨accounts, saturatingAdd replay.indexedTransfers transfers.length,
    mergeLogMetrics replay.metrics metrics⟩

def replaySlices (targetBlock maxRange resultCap : Nat) :
    Nat → Nat → Replay → Asking σ CheckpointError Replay
  | 0, _, _ => throw .unfinished
  | fuel + 1, sliceFrom, replay =>
      if sliceFrom ≤ targetBlock then do
        let sliceTo := sliceEnd targetBlock maxRange sliceFrom
        let replay ← replaySlice client abi scored tracked decimals maxRange resultCap replay
          (sliceFrom, sliceTo)
        replaySlices targetBlock maxRange resultCap fuel (saturatingAdd sliceTo 1) replay
      else pure replay

/-- `advance_token`, with the token that it leaves. -/
def advanceToken (fuel : Nat) (token : TokenState) (targetBlock maxRange resultCap : Nat) :
    Asking σ CheckpointError (Nat × LogMetrics × TokenState) := do
  liftResult (revertIf (targetBlock < token.cursorBlock) (.invalid
    s!"checkpoint for {addressHex scored.token} is ahead of requested block {targetBlock}"))
  if targetBlock = token.cursorBlock then pure (0, .default, token)
  else do
    liftResult (revertIf (maxRange = 0) (.invalid "score replay max range must be nonzero"))
    let replay ← replaySlices client abi scored tracked token.decimals targetBlock maxRange resultCap
      fuel (token.cursorBlock + 1) ⟨token.accounts, 0, .default⟩
    let anchor ← mapFailure .anchor (blockByNumber client targetBlock)
    pure (replay.indexedTransfers, replay.metrics,
      { token with
        cursorBlock := targetBlock
        cursorBlockHash := hashHex anchor.hash
        rates := scored.rates
        accounts := replay.accounts })

end Advance

/-! ## The slices of the loop -/

section Slices

variable {targetBlock maxRange sliceFrom : Nat}

theorem sliceEnd_bounds (inside : sliceFrom ≤ targetBlock) (positive : 1 ≤ maxRange)
    (inWord : targetBlock ≤ maxU64) :
    sliceFrom ≤ sliceEnd targetBlock maxRange sliceFrom ∧
      sliceEnd targetBlock maxRange sliceFrom ≤ targetBlock ∧
      sliceEnd targetBlock maxRange sliceFrom < sliceFrom + maxRange := by
  unfold sliceEnd saturatingAdd
  omega

theorem saturatingAdd_one {value : Nat} (below : value < maxU64) :
    saturatingAdd value 1 = value + 1 := by
  unfold saturatingAdd
  omega

/-- Below the last number of a word each slice starts behind the one before. -/
theorem sliceLoop_partitions (positive : 1 ≤ maxRange) (below : targetBlock < maxU64) (fuel : Nat)
    {lower : Nat} (within : lower ≤ targetBlock) (enough : targetBlock - lower < fuel) :
    ∃ slices, sliceLoop targetBlock maxRange fuel (lower + 1) = some slices ∧
      Partitions lower targetBlock maxRange slices := by
  induction fuel generalizing lower with
  | zero => omega
  | succ fuel ih =>
      by_cases inside : lower + 1 ≤ targetBlock
      · have bounds := sliceEnd_bounds inside positive below.le
        obtain ⟨slices, later, partitions⟩ := ih bounds.2.1 (by omega)
        have next := saturatingAdd_one (bounds.2.1.trans_lt below)
        refine ⟨_, ?_, partitions.cons bounds.1 bounds.2.1 (by omega)⟩
        rw [sliceLoop, if_pos inside, next, later]
        rfl
      · have done : lower = targetBlock := by omega
        subst done
        exact ⟨[], by rw [sliceLoop, if_neg inside], partitions_nil⟩

/-- At the last number of a word the loop visits the last slice for ever. -/
theorem sliceLoop_diverges (fuel : Nat) (inside : sliceFrom ≤ maxU64) :
    sliceLoop maxU64 maxRange fuel sliceFrom = none := by
  induction fuel generalizing sliceFrom with
  | zero => rfl
  | succ fuel ih =>
      have next : saturatingAdd (sliceEnd maxU64 maxRange sliceFrom) 1 ≤ maxU64 := Nat.min_le_right ..
      rw [sliceLoop, if_pos inside, ih next]
      rfl

end Slices

/-! ## The transfers of the loop -/

section Replays

variable {σ : Type} {client : RpcClient σ} {abi : AbiLibrary} {chain : LogChain}
  {token : Address} {history : Erc20History chain token} {resultCap : Nat}
  {decimals : Nat} {rates : List RatePoint} {tracked : Option AccountSet}

/-- The transfers from one block to another, in the order of the chain. -/
def transfersBetween {chain : LogChain} {token : Address} (history : Erc20History chain token)
    (fromBlock toBlock : Nat) : List TokenTransfer :=
  (chain.between history.ledger.emits fromBlock (toBlock + 1 - fromBlock)).map history.tokenTransfer

def TransferBefore (first second : TokenTransfer) : Prop :=
  first.blockNumber < second.blockNumber ∨
    first.blockNumber = second.blockNumber ∧ first.logIndex < second.logIndex

theorem transfersBetween_ordered (ordered : chain.Ordered) (fromBlock toBlock : Nat) :
    (transfersBetween history fromBlock toBlock).Pairwise TransferBefore := by
  rw [transfersBetween, List.pairwise_map]
  exact LogChain.between_pairwise ordered _ _

theorem transfersBetween_split {fromBlock middle toBlock : Nat} (first : fromBlock ≤ middle + 1)
    (second : middle ≤ toBlock) : transfersBetween history fromBlock toBlock =
      transfersBetween history fromBlock middle ++ transfersBetween history (middle + 1) toBlock := by
  have counts : toBlock + 1 - fromBlock = (middle + 1 - fromBlock) + (toBlock + 1 - (middle + 1)) := by
    omega
  have next : fromBlock + (middle + 1 - fromBlock) = middle + 1 := by omega
  rw [transfersBetween, counts, LogChain.between_append, List.map_append, next]
  rfl

theorem wanted_transfer (history : Erc20History chain token) (log : RpcLog) :
    Wanted chain (transferFilter token) log ↔
      chain.Has log ∧ history.ledger.emits log = true := by
  refine and_congr_right fun has => (selects_signed ..).trans ?_
  exact and_iff_left trivial

theorem yields_allTransfers (history : Erc20History chain token) (standard : abi.Standard)
    (ordered : chain.Ordered) (answers : ∀ filter, AnswersCanonically client chain filter resultCap)
    (fromBlock toBlock maxRange : Nat) (inWord : toBlock ≤ maxU64) (forward : fromBlock ≤ toBlock) :
    Yields (fun result => result.1 = transfersBetween history fromBlock toBlock)
      (erc20Transfers client abi token fromBlock toBlock maxRange resultCap) := by
  rw [erc20Transfers, if_neg (Nat.not_lt.mpr forward)]
  refine (yields_scanLogs _ _ _ _ inWord (answers _)).bind fun scanned isScanned => ?_
  have logs : scanned.1 =
      chain.between history.ledger.emits fromBlock (toBlock + 1 - fromBlock) := by
    refine ordered_ext isScanned.2 (LogChain.between_pairwise ordered _ _) fun log => ?_
    rw [isScanned.1 log, wanted_transfer history, LogChain.mem_between, and_assoc]
    refine and_congr_right fun _ => and_congr_right fun _ => ?_
    omega
  refine (yields_result _).bind fun transfers decoded => ends_pure ?_
  have isTransfers : transfers = transfersBetween history fromBlock toBlock := by
    have decodes : scanned.1.mapM (decodeTransferLog abi) =
        .ok (transfersBetween history fromBlock toBlock) := by
      rw [mapM_ok_iff, transfersBetween, ← logs, List.forall₂_map_right_iff, List.forall₂_same]
      intro log member
      rw [logs, LogChain.mem_between] at member
      exact decodeTransferLog_eq standard member.1 member.2.1
    rw [decodes] at decoded
    exact (Except.ok.inj decoded).symm
  rw [isTransfers]
  apply List.mergeSort_of_pairwise
  refine (transfersBetween_ordered ordered fromBlock toBlock).imp fun {first second} before => ?_
  rw [decide_eq_true_eq]
  exact before.imp_right fun same => ⟨same.1, same.2.le⟩

/-- Applying transfers never reports that the model ran out of fuel. -/
theorem applyTransferDelta_avoids (accounts : Accounts) (address : Address) (block value : Nat)
    (inflow : Bool) : Avoids (· = .unfinished)
      (applyTransferDelta decimals rates tracked accounts address block value inflow) := by
  have named (error : ScoreCoreError) : core error ≠ .unfinished := by simp [core]
  have outflow (error : ScoreCoreError) : outflowError address block error ≠ .unfinished := by
    cases error <;> simp [outflowError, core]
  apply avoids_ite
  · exact fun _ => avoids_pure _
  · intro _
    refine avoids_bind _ _ ?_ fun account _ => avoids_pure _
    apply avoids_ite
    · intro _ error failed
      cases run : applyTransfer (accounts[address]?.getD (.fresh 0 0)) block value 0 rates decimals with
      | ok account => simp [run, Except.mapError] at failed
      | error actual =>
          simp only [run, Except.mapError, Except.error.injEq] at failed
          exact failed ▸ named actual
    · intro _ error failed
      cases run : applyTransfer (accounts[address]?.getD (.fresh 0 0)) block 0 value rates decimals with
      | ok account => simp [run, Except.mapError] at failed
      | error actual =>
          simp only [run, Except.mapError, Except.error.injEq] at failed
          exact failed ▸ outflow actual

theorem applyTransfers_avoids (accounts : Accounts) (transfers : List TokenTransfer) :
    Avoids (· = .unfinished) (applyTransfers decimals rates tracked accounts transfers) := by
  induction transfers generalizing accounts with
  | nil => exact avoids_pure _
  | cons transfer rest ih =>
      rw [applyTransfers, List.foldlM_cons]
      refine avoids_bind _ _ ?_ fun next _ => ih next
      exact avoids_bind _ _ (applyTransferDelta_avoids _ _ _ _ _) fun middle _ =>
        applyTransferDelta_avoids _ _ _ _ _

theorem applyTransferDelta_untracked {accounts : Accounts} {set : AccountSet} {address : Address}
    {block value : Nat} {inflow : Bool} (untracked : address ∉ set) :
    applyTransferDelta decimals rates (some set) accounts address block value inflow =
      .ok accounts := by
  have skipped : address = .zero ∨
      (some set).any (fun tracked => decide ¬ tracked.contains address = true) = true := by
    right
    simp [untracked]
  rw [applyTransferDelta, if_pos skipped]
  rfl

/-- A transfer between untracked accounts changes nothing. -/
theorem applyTransfers_touching (set : AccountSet) (accounts : Accounts)
    (transfers : List TokenTransfer) :
    applyTransfers decimals rates (some set) accounts (transfers.filter fun transfer =>
      set.contains transfer.sender || set.contains transfer.recipient) =
    applyTransfers decimals rates (some set) accounts transfers := by
  induction transfers generalizing accounts with
  | nil => rfl
  | cons transfer rest ih =>
      rw [List.filter_cons]
      split
      · simp only [applyTransfers, List.foldlM_cons]
        exact bind_congr_ok fun next _ => ih next
      · rw [ih, applyTransfers, applyTransfers, List.foldlM_cons]
        have neither : transfer.sender ∉ set ∧ transfer.recipient ∉ set := by simp_all
        rw [applyTokenTransfer, applyTransferDelta_untracked neither.1]
        change _ = Except.bind (applyTransferDelta ..) _
        rw [applyTransferDelta_untracked neither.2]
        rfl

/-- The transfers that a slice returns have the effect of all its transfers. -/
theorem yields_sliceTransfers (history : Erc20History chain token) (standard : abi.Standard)
    (ordered : chain.Ordered) (answers : ∀ filter, AnswersCanonically client chain filter resultCap)
    {lower toBlock : Nat} (maxRange : Nat) (inWord : toBlock ≤ maxU64) (forward : lower < toBlock) :
    Yields (fun result => ∀ accounts, applyTransfers decimals rates tracked accounts result.1 =
        applyTransfers decimals rates tracked accounts (transfersBetween history (lower + 1) toBlock))
      (sliceTransfers client abi token tracked (lower + 1) toBlock maxRange resultCap) := by
  cases tracked with
  | none =>
      refine (yields_allTransfers history standard ordered answers _ _ maxRange inWord forward).mono
        (fun result isResult accounts => ?_) fun _ => id
      rw [isResult]
  | some set =>
      refine (yields_erc20Transfers history standard ordered answers maxRange inWord forward).mono
        (fun result isResult accounts => ?_) fun _ => id
      have touching : (history.touching set lower toBlock).map history.tokenTransfer =
          (transfersBetween history (lower + 1) toBlock).filter fun transfer =>
            set.contains transfer.sender || set.contains transfer.recipient := by
        rw [transfersBetween, List.filter_map, Erc20History.touching,
          Nat.add_sub_add_right]
        rfl
      rw [isResult, touching, applyTransfers_touching]

variable {scored : ScoredToken}

/-- What the loop leaves is what the transfers that were left make of the accounts. -/
theorem ends_replaySlices (history : Erc20History chain scored.token) (standard : abi.Standard)
    (ordered : chain.Ordered) (answers : ∀ filter, AnswersCanonically client chain filter resultCap)
    {targetBlock maxRange : Nat} (positive : 1 ≤ maxRange) (below : targetBlock < maxU64) (fuel : Nat)
    {lower : Nat} (within : lower ≤ targetBlock) (enough : targetBlock - lower < fuel)
    (replay : Replay) :
    Ends (fun last => applyTransfers decimals scored.rates tracked replay.accounts
        (transfersBetween history (lower + 1) targetBlock) = .ok last.accounts)
      (· ≠ .unfinished)
      (replaySlices client abi scored tracked decimals targetBlock maxRange resultCap fuel (lower + 1)
        replay) := by
  induction fuel generalizing lower replay with
  | zero => omega
  | succ fuel ih =>
      rw [replaySlices]
      by_cases inside : lower + 1 ≤ targetBlock
      · have bounds := sliceEnd_bounds inside positive below.le
        have next := saturatingAdd_one (bounds.2.1.trans_lt below)
        rw [if_pos inside]
        dsimp only
        rw [next]
        have slice : Ends (fun middle => applyTransfers decimals scored.rates tracked replay.accounts
            (transfersBetween history (lower + 1) (sliceEnd targetBlock maxRange (lower + 1))) =
              .ok middle.accounts) (· ≠ .unfinished)
            (replaySlice client abi scored tracked decimals maxRange resultCap replay
              (lower + 1, sliceEnd targetBlock maxRange (lower + 1))) := by
          have read : Ends (fun result => ∀ accounts,
              applyTransfers decimals scored.rates tracked accounts result.1 =
                applyTransfers decimals scored.rates tracked accounts (transfersBetween history
                  (lower + 1) (sliceEnd targetBlock maxRange (lower + 1))))
              (· ≠ CheckpointError.unfinished)
              (mapFailure .history (sliceTransfers client abi scored.token tracked (lower + 1)
                (sliceEnd targetBlock maxRange (lower + 1)) maxRange resultCap)) :=
            (yields_sliceTransfers history standard ordered answers maxRange
              (bounds.2.1.trans below.le) bounds.1).mapFailure fun _ _ => by simp
          refine read.bind fun result sameEffect => ?_
          refine (ends_liftResult (fun accounts applied => applied)
            (applyTransfers_avoids _ _)).bind fun accounts applied => ?_
          exact ends_pure ((sameEffect _).symm.trans applied)
        refine slice.bind fun middle applied => ?_
        refine (ih bounds.2.1 (by omega) middle).mono (fun last rest => ?_) fun _ => id
        rw [transfersBetween_split (by omega) bounds.2.1, applyTransfers, List.foldlM_append]
        exact (bind_after applied _).trans rest
      · have done : lower = targetBlock := by omega
        subst done
        rw [if_neg inside]
        refine ends_pure ?_
        have nothing : transfersBetween history (lower + 1) lower = [] := by
          rw [transfersBetween, Nat.sub_self]
          rfl
        rw [nothing]
        rfl

/-- A loop that ends goes through its slices. -/
theorem replaySlices_eq {targetBlock maxRange : Nat} (fuel : Nat) {sliceFrom : Nat}
    {slices : List (Nat × Nat)} (looped : sliceLoop targetBlock maxRange fuel sliceFrom = some slices)
    (replay : Replay) :
    replaySlices client abi scored tracked decimals targetBlock maxRange resultCap fuel sliceFrom
        replay =
      slices.foldlM (replaySlice client abi scored tracked decimals maxRange resultCap) replay := by
  induction fuel generalizing sliceFrom slices replay with
  | zero => cases looped
  | succ fuel ih =>
      rw [sliceLoop] at looped
      rw [replaySlices]
      by_cases inside : sliceFrom ≤ targetBlock
      · rw [if_pos inside, Option.map_eq_some_iff] at looped
        obtain ⟨later, loopedLater, rfl⟩ := looped
        rw [if_pos inside, List.foldlM_cons]
        exact bind_congr fun middle => ih loopedLater middle
      · rw [if_neg inside] at looped
        cases looped
        rw [if_neg inside]
        rfl

/-- Where every slice is read, a loop that does not end never returns. -/
theorem replaySlices_diverges {maxRange : Nat}
    (reads : ∀ replay slice, Ends (fun _ => True) (fun _ => False)
      (replaySlice client abi scored tracked decimals maxRange resultCap replay slice))
    (fuel : Nat) {sliceFrom : Nat} (inside : sliceFrom ≤ maxU64) (replay : Replay) :
    Ends (fun _ => False) (· = .unfinished)
      (replaySlices client abi scored tracked decimals maxU64 maxRange resultCap fuel sliceFrom
        replay) := by
  induction fuel generalizing sliceFrom replay with
  | zero => exact ends_throw rfl
  | succ fuel ih =>
      rw [replaySlices, if_pos inside]
      exact ((reads _ _).mono (fun _ => id) fun _ => False.elim).bind fun middle _ =>
        ih (Nat.min_le_right ..) middle

theorem ends_advanceToken (history : Erc20History chain scored.token) (standard : abi.Standard)
    (ordered : chain.Ordered) (answers : ∀ filter, AnswersCanonically client chain filter resultCap)
    {targetBlock maxRange : Nat} (positive : 1 ≤ maxRange) (below : targetBlock < maxU64)
    {state : TokenState} (behind : state.cursorBlock < targetBlock) :
    Ends (fun result => result.2.2.cursorBlock = targetBlock ∧
        applyTransfers state.decimals scored.rates tracked state.accounts
          (transfersBetween history (state.cursorBlock + 1) targetBlock) = .ok result.2.2.accounts)
      (· ≠ .unfinished)
      (advanceToken client abi scored tracked (targetBlock + 1) state targetBlock maxRange
        resultCap) := by
  have checked {condition : Prop} [Decidable condition] {message : String} :
      Ends (fun _ => True) (· ≠ CheckpointError.unfinished)
        (liftResult (revertIf condition (.invalid message)) : Asking σ CheckpointError Unit) := by
    apply ends_liftResult
    · exact fun _ _ => trivial
    · intro error failed
      unfold revertIf at failed
      split at failed
      · cases failed
        simp
      · cases failed
  refine checked.bind fun _ _ => ?_
  rw [if_neg behind.ne']
  refine checked.bind fun _ _ => ?_
  refine (ends_replaySlices history standard ordered answers positive below (targetBlock + 1)
    behind.le (by omega) _).bind fun replay applied => ?_
  have anchored : Ends (fun _ => True) (· ≠ CheckpointError.unfinished)
      (mapFailure .anchor (blockByNumber client targetBlock)) :=
    ends_true.mapFailure fun _ _ => by simp
  exact anchored.bind fun anchor _ => ends_pure ⟨rfl, applied⟩

end Replays

/-! ## When a replay is one of each transfer -/

/-- The loop ends, its slices are a partition of the blocks after the cursor, and the replay
applies each transfer of these blocks once and in order. -/
def ReplaysOnce (cursorBlock targetBlock maxRange : Nat) : Prop :=
  (∃ fuel slices, sliceLoop targetBlock maxRange fuel (cursorBlock + 1) = some slices ∧
    Partitions cursorBlock targetBlock maxRange slices ∧
    ∀ (σ : Type) (client : RpcClient σ) (abi : AbiLibrary) (scored : ScoredToken)
      (tracked : Option AccountSet) (decimals resultCap : Nat) (replay : Replay),
      replaySlices client abi scored tracked decimals targetBlock maxRange resultCap fuel
          (cursorBlock + 1) replay =
        slices.foldlM (replaySlice client abi scored tracked decimals maxRange resultCap) replay) ∧
  ∀ (σ : Type) (client : RpcClient σ) (abi : AbiLibrary) (chain : LogChain) (scored : ScoredToken)
    (history : Erc20History chain scored.token) (tracked : Option AccountSet) (state : TokenState)
    (resultCap : Nat), abi.Standard → chain.Ordered →
    (∀ filter, AnswersCanonically client chain filter resultCap) → state.cursorBlock = cursorBlock →
    ∃ logs : List RpcLog, logs.Pairwise RpcLog.Before ∧
      (∀ log, log ∈ logs ↔ chain.Has log ∧ history.ledger.emits log = true ∧
        cursorBlock < log.blockNumber ∧ log.blockNumber ≤ targetBlock) ∧
      ∃ fuel, Ends (fun result => result.2.2.cursorBlock = targetBlock ∧
          applyTransfers state.decimals scored.rates tracked state.accounts
            (logs.map history.tokenTransfer) = .ok result.2.2.accounts)
        (· ≠ .unfinished)
        (advanceToken client abi scored tracked fuel state targetBlock maxRange resultCap)

/-- The loop misses its end at the last block number of all, and only there. -/
theorem replays_once_iff (cursorBlock targetBlock maxRange : Nat)
    (behind : cursorBlock < targetBlock) (inWord : targetBlock ≤ maxU64) (positive : 1 ≤ maxRange) :
    ReplaysOnce cursorBlock targetBlock maxRange ↔ targetBlock < maxU64 := by
  constructor
  · rintro ⟨⟨fuel, slices, looped, -⟩, -⟩
    by_contra atLast
    have isLast : targetBlock = maxU64 := by omega
    rw [isLast, sliceLoop_diverges fuel (by omega)] at looped
    cases looped
  · intro below
    obtain ⟨slices, looped, partitions⟩ :=
      sliceLoop_partitions positive below (targetBlock + 1) behind.le (by omega)
    refine ⟨⟨_, slices, looped, partitions, fun _ _ _ _ _ _ _ replay =>
      replaySlices_eq _ looped replay⟩, ?_⟩
    rintro σ client abi chain scored history tracked state resultCap standard ordered answers rfl
    refine ⟨chain.between history.ledger.emits (state.cursorBlock + 1)
      (targetBlock + 1 - (state.cursorBlock + 1)), LogChain.between_pairwise ordered _ _, ?_, _,
      ends_advanceToken history standard ordered answers positive below behind⟩
    intro log
    rw [LogChain.mem_between]
    refine and_congr_right fun _ => and_congr_right fun _ => ?_
    omega

theorem replays_ten_blocks : ReplaysOnce 0 10 3 :=
  (replays_once_iff 0 10 3 (by decide) (by decide) (by decide)).mpr (by decide)

/-- The last slice is visited again and again. -/
theorem last_block_never_replayed : ¬ ReplaysOnce 18446744073709551614 18446744073709551615 1 := by
  rintro ⟨⟨fuel, slices, looped, -⟩, -⟩
  have never : sliceLoop 18446744073709551615 1 fuel (18446744073709551614 + 1) = none :=
    sliceLoop_diverges fuel (Nat.le_refl maxU64)
  rw [never] at looped
  cases looped

end Usd8Core.Checkpoint
