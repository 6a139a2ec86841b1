import Usd8Core.Checkpoint.Persistence
import Usd8Core.Score.ResumedStates
import Usd8Core.ScoreApi.CalculateInner

/-!
# The checkpoint of one scored token

What the score service stores of an account and a token: a cursor, the rates that were known
there and the score state, all as texts.  A checkpoint that is advanced over the transfers after
its cursor goes on with the sum that its state has accumulated.
-/

set_option autoImplicit false

namespace Usd8Core.ScoreApi

open Usd8Core.Checkpoint (validHash)
open Usd8Core.Engine (TokenTransfer)
open Usd8Core.Lib.ByteWords
open Usd8Core.Lib.CheckedCall
open Usd8Core.Lib.DecimalText
open Usd8Core.Lib.Json (toAsciiLowercase)
open Usd8Core.Score

structure PersistedAccountState where
  balance : String
  lastBlock : String
  completedNumerator : String
  activeSegmentFrom : Option String
  activeIntegral : String

structure PersistedRatePoint where
  fromBlock : String
  rate : String

structure TokenCheckpoint where
  token : String
  decimals : Nat
  cursorBlock : String
  cursorBlockHash : String
  rates : List PersistedRatePoint
  account : PersistedAccountState

abbrev Incremental := Except IncrementalScoreError

/-! ## Texts -/

def decimal (value field : String) : Incremental Nat :=
  orRevert (canonicalValue value.toList) (.malformed field)

def decimalU64 (value field : String) : Incremental Nat :=
  orRevert ((canonicalValue value.toList).filter (· ≤ maxU64)) (.malformed field)

def persistedRates (rates : List RatePoint) : List PersistedRatePoint :=
  rates.map fun point => ⟨decimalText point.fromBlock, decimalText point.rate⟩

def parseRatePoint (point : PersistedRatePoint) : Incremental RatePoint := do
  let fromBlock ← decimalU64 point.fromBlock "rates.fromBlock"
  let rate ← decimal point.rate "rates.rate"
  pure ⟨fromBlock, rate⟩

def parseRates (rates : List PersistedRatePoint) : Incremental (List RatePoint) := do
  let parsed ← rates.mapM parseRatePoint
  (validateRates parsed).mapError .core
  pure parsed

def persistedAccount (state : AccountScoreState) : PersistedAccountState where
  balance := decimalText state.balance
  lastBlock := decimalText state.lastBlock
  completedNumerator := decimalText state.completedNumerator
  activeSegmentFrom := state.activeSegmentFrom.map decimalText
  activeIntegral := decimalText state.activeIntegral

def parseSegmentFrom : Option String → Incremental (Option Nat)
  | none => pure none
  | some value => do
      let fromBlock ← decimalU64 value "account.activeSegmentFrom"
      pure (some fromBlock)

def parseAccount (state : PersistedAccountState) : Incremental AccountScoreState := do
  let balance ← decimal state.balance "account.balance"
  let lastBlock ← decimalU64 state.lastBlock "account.lastBlock"
  let completedNumerator ← decimal state.completedNumerator "account.completedNumerator"
  let activeSegmentFrom ← parseSegmentFrom state.activeSegmentFrom
  let activeIntegral ← decimal state.activeIntegral "account.activeIntegral"
  pure ⟨balance, lastBlock, completedNumerator, activeSegmentFrom, activeIntegral⟩

def checkpointCursor (checkpoint : TokenCheckpoint) : Incremental Nat :=
  decimalU64 checkpoint.cursorBlock "cursorBlock"

def checkpointBalance (checkpoint : TokenCheckpoint) : Incremental Nat :=
  decimal checkpoint.account.balance "account.balance"

/-! ## Checkpoints -/

/-- The rates that were known are the first ones now, and the others begin after the cursor. -/
def checkRates (oldRates rates : List RatePoint) (cursor : Nat) : Incremental Unit := do
  revertIf (rates.length < oldRates.length ∨ (oldRates.zip rates).any (fun (old, current) =>
    decide (old ≠ current)) = true) .rateHistoryMismatch
  revertIf ((rates.drop oldRates.length).any (·.fromBlock ≤ cursor) = true) .retroactiveRate

def validateCheckpoint (checkpoint : TokenCheckpoint) (scored : Checkpoint.ScoredToken) :
    Incremental (Nat × AccountScoreState) := do
  revertIf (checkpoint.token ≠ addressHex scored.token) .tokenMismatch
  revertIf (checkpoint.decimals ≠ scored.decimals) .decimalsMismatch
  revertIf (validHash checkpoint.cursorBlockHash = false) (.malformed "cursorBlockHash")
  let cursor ← checkpointCursor checkpoint
  let oldRates ← parseRates checkpoint.rates
  checkRates oldRates scored.rates cursor
  let state ← parseAccount checkpoint.account
  revertIf (state.lastBlock ≠ cursor) (.malformed "account.lastBlock")
  pure (cursor, state)

/-- The checkpoint of a state whose last block is the cursor. -/
def checkpointOf (scored : Checkpoint.ScoredToken) (state : AccountScoreState) (cursorBlockHash : String) :
    TokenCheckpoint where
  token := addressHex scored.token
  decimals := scored.decimals
  cursorBlock := decimalText state.lastBlock
  cursorBlockHash := toAsciiLowercase cursorBlockHash.toList
  rates := persistedRates scored.rates
  account := persistedAccount state

def newTokenCheckpoint (scored : Checkpoint.ScoredToken) (startingBlock startingBalance : Nat)
    (startingBlockHash : String) : TokenCheckpoint :=
  checkpointOf scored (.fresh startingBalance startingBlock) startingBlockHash

/-- The loop over the transfers: the position of the one before, and the state. -/
structure TransferWalk where
  previous : Option (Nat × Nat)
  state : AccountScoreState

/-- The order of tuples. -/
def notAfter (order previous : Nat × Nat) : Prop :=
  order.1 < previous.1 ∨ order.1 = previous.1 ∧ order.2 ≤ previous.2

instance (order previous : Nat × Nat) : Decidable (notAfter order previous) :=
  inferInstanceAs (Decidable (_ ∨ _))

def inflowOf (account : Address) (transfer : TokenTransfer) : Nat :=
  if transfer.recipient = account then transfer.value else 0

def outflowOf (account : Address) (transfer : TokenTransfer) : Nat :=
  if transfer.sender = account then transfer.value else 0

section Advance

variable (scored : Checkpoint.ScoredToken) (account : Address) (cursor targetBlock : Nat)

def applyCheckpointTransfer (walk : TransferWalk) (transfer : TokenTransfer) :
    Incremental TransferWalk := do
  let order := (transfer.blockNumber, transfer.logIndex)
  revertIf (transfer.blockNumber ≤ cursor ∨ transfer.blockNumber > targetBlock ∨
    ∃ previous ∈ walk.previous, notAfter order previous) .invalidTransferOrder
  let state ← (if inflowOf account transfer ≠ 0 ∨ outflowOf account transfer ≠ 0 then
      (applyTransfer walk.state transfer.blockNumber (inflowOf account transfer)
        (outflowOf account transfer) scored.rates scored.decimals).mapError .core
    else pure walk.state)
  pure ⟨some order, state⟩

end Advance

def advanceTokenCheckpoint (checkpoint : TokenCheckpoint) (scored : Checkpoint.ScoredToken)
    (account : Address) (transfers : List TokenTransfer) (targetBlock : Nat)
    (targetBlockHash : String) : Incremental TokenCheckpoint := do
  revertIf (validHash targetBlockHash = false) (.malformed "targetBlockHash")
  (validateRates scored.rates).mapError .core
  let (cursor, state) ← validateCheckpoint checkpoint scored
  revertIf (targetBlock < cursor) .cursorRollback
  let walk ← transfers.foldlM (applyCheckpointTransfer scored account cursor targetBlock)
    ⟨none, state⟩
  let state ← (advanceAccount walk.state targetBlock scored.rates scored.decimals).mapError .core
  pure { checkpoint with
    cursorBlock := decimalText targetBlock
    cursorBlockHash := toAsciiLowercase targetBlockHash.toList
    rates := persistedRates scored.rates
    account := persistedAccount state }

def tokenNumerator (checkpoint : TokenCheckpoint) (scored : Checkpoint.ScoredToken) (targetBlock : Nat) :
    Incremental Nat := do
  let (cursor, state) ← validateCheckpoint checkpoint scored
  revertIf (targetBlock < cursor) .cursorRollback
  (projectedNumerator state targetBlock scored.rates scored.decimals).mapError .core

def scaledBalance (balance decimals : Nat) : Nat :=
  if decimals ≤ 18 then balance * 10 ^ (18 - decimals) else balance / 10 ^ (decimals - 18)

/-- The rate of the last point that starts at the block or before it. -/
def rateAt (rates : List RatePoint) (targetBlock : Nat) : Nat :=
  ((rates.reverse.find? fun point => point.fromBlock ≤ targetBlock).map RatePoint.rate).getD 0

def liveScorePerSecond (checkpoint : TokenCheckpoint) (scored : Checkpoint.ScoredToken) (targetBlock : Nat) :
    Incremental Nat := do
  let balance ← checkpointBalance checkpoint
  pure (scaledBalance balance scored.decimals * rateAt scored.rates targetBlock / scoreScale / 12)

/-! ## Reading back what was stored -/

section Reading

variable {held : Nat → Nat} {scored : Checkpoint.ScoredToken} {account : Address} {checkpoint : TokenCheckpoint}
  {rates known : List RatePoint} {state : AccountScoreState} {cursor targetBlock : Nat}
  {transfers : List TokenTransfer}

theorem decimal_ok {value read : Nat} {field : String}
    (run : decimal (decimalText value) field = .ok read) : read = value := by
  rw [decimal, canonicalValue_decimalText, orRevert_ok_iff] at run
  exact (Option.some.inj run).symm

theorem decimalU64_ok {value read : Nat} {field : String}
    (run : decimalU64 (decimalText value) field = .ok read) : read = value := by
  rw [decimalU64, canonicalValue_decimalText, orRevert_ok_iff, Option.filter_eq_some_iff] at run
  exact (Option.some.inj run.1).symm

theorem parseRates_ok (run : parseRates (persistedRates known) = .ok rates) : rates = known := by
  obtain ⟨parsed, isParsed, run⟩ := (bind_ok_iff _ _ _).mp run
  obtain ⟨_, -, result⟩ := (bind_ok_iff _ _ _).mp run
  cases (pure_ok_iff _ _).mp result
  have each := (mapM_ok_iff _ _ _).mp isParsed
  rw [persistedRates, List.forall₂_map_left_iff] at each
  rw [← List.forall₂_eq_eq_eq]
  refine each.flip.imp fun point stored read => ?_
  obtain ⟨fromBlock, isFromBlock, read⟩ := (bind_ok_iff _ _ _).mp read
  obtain ⟨rate, isRate, result⟩ := (bind_ok_iff _ _ _).mp read
  cases (pure_ok_iff _ _).mp result
  rw [decimalU64_ok isFromBlock, decimal_ok isRate]

theorem parseSegmentFrom_ok {segmentFrom read : Option Nat}
    (run : parseSegmentFrom (segmentFrom.map decimalText) = .ok read) : read = segmentFrom := by
  cases segmentFrom with
  | none => exact ((pure_ok_iff _ _).mp run).symm
  | some fromBlock =>
      obtain ⟨value, isValue, result⟩ := (bind_ok_iff _ _ _).mp run
      cases (pure_ok_iff _ _).mp result
      rw [decimalU64_ok isValue]

theorem parseAccount_ok {read : AccountScoreState}
    (run : parseAccount (persistedAccount state) = .ok read) : read = state := by
  obtain ⟨balance, isBalance, run⟩ := (bind_ok_iff _ _ _).mp run
  obtain ⟨lastBlock, isLastBlock, run⟩ := (bind_ok_iff _ _ _).mp run
  obtain ⟨completed, isCompleted, run⟩ := (bind_ok_iff _ _ _).mp run
  obtain ⟨segmentFrom, isSegment, run⟩ := (bind_ok_iff _ _ _).mp run
  obtain ⟨integral, isIntegral, result⟩ := (bind_ok_iff _ _ _).mp run
  cases (pure_ok_iff _ _).mp result
  rw [decimal_ok isBalance, decimalU64_ok isLastBlock, decimal_ok isCompleted,
    parseSegmentFrom_ok isSegment, decimal_ok isIntegral]

/-- Two lists that agree as far as both go, the first being no longer, are prefix and list. -/
theorem prefix_of_zip (shorter : known.length ≤ rates.length)
    (agree : (known.zip rates).any (fun (old, current) => decide (old ≠ current)) = false) :
    rates = known ++ rates.drop known.length := by
  induction known generalizing rates with
  | nil => rfl
  | cons point rest ih =>
      cases rates with
      | nil => simp at shorter
      | cons other others =>
          simp only [List.zip_cons_cons, List.any_cons, Bool.or_eq_false_iff,
            decide_eq_false_iff_not, not_not] at agree
          rw [agree.1, List.length_cons, List.drop_succ_cons, List.cons_append]
          exact congrArg _ (ih (by simpa using shorter) agree.2)

theorem checkRates_ok (run : checkRates known rates cursor = .ok ()) :
    KnownAt rates cursor known := by
  obtain ⟨_, agrees, later⟩ := (bind_ok_iff _ _ _).mp run
  rw [revertIf_ok_iff, not_or, Nat.not_lt, Bool.not_eq_true] at agrees
  rw [revertIf_ok_iff, List.any_eq_true] at later
  refine ⟨rates.drop known.length, prefix_of_zip agrees.1 agrees.2, fun point member => ?_⟩
  by_contra early
  exact later ⟨point, member, decide_eq_true (Nat.not_lt.mp early)⟩

/-- The checkpoint is the text of a state that has accumulated what was held, with the rates that
were known. -/
structure Stores (held : Nat → Nat) (checkpoint : TokenCheckpoint) (known : List RatePoint)
    (state : AccountScoreState) : Prop where
  cursor : checkpoint.cursorBlock = decimalText state.lastBlock
  rates : checkpoint.rates = persistedRates known
  account : checkpoint.account = persistedAccount state
  accumulated : Accumulated held known checkpoint.decimals state

theorem Stores.cursor_ok (stores : Stores held checkpoint known state)
    (run : checkpointCursor checkpoint = .ok cursor) : cursor = state.lastBlock := by
  rw [checkpointCursor, stores.cursor] at run
  exact decimalU64_ok run

theorem Stores.balance_ok {balance : Nat} (stores : Stores held checkpoint known state)
    (run : checkpointBalance checkpoint = .ok balance) : balance = state.balance := by
  rw [checkpointBalance, stores.account] at run
  exact decimal_ok run

/-- What a valid checkpoint stores is read back, and its rates are known at its cursor. -/
theorem Stores.validated {read : Nat × AccountScoreState}
    (stores : Stores held checkpoint known state)
    (run : validateCheckpoint checkpoint scored = .ok read) :
    read = (state.lastBlock, state) ∧ checkpoint.token = addressHex scored.token ∧
      checkpoint.decimals = scored.decimals ∧ KnownAt scored.rates state.lastBlock known := by
  obtain ⟨_, token, run⟩ := (bind_ok_iff _ _ _).mp run
  obtain ⟨_, decimals, run⟩ := (bind_ok_iff _ _ _).mp run
  obtain ⟨_, -, run⟩ := (bind_ok_iff _ _ _).mp run
  obtain ⟨cursor, isCursor, run⟩ := (bind_ok_iff _ _ _).mp run
  obtain ⟨oldRates, isRates, run⟩ := (bind_ok_iff _ _ _).mp run
  obtain ⟨_, checked, run⟩ := (bind_ok_iff _ _ _).mp run
  obtain ⟨account, isAccount, run⟩ := (bind_ok_iff _ _ _).mp run
  obtain ⟨_, -, result⟩ := (bind_ok_iff _ _ _).mp run
  cases (pure_ok_iff _ _).mp result
  rw [stores.rates] at isRates
  rw [stores.account] at isAccount
  cases stores.cursor_ok isCursor
  cases parseRates_ok isRates
  cases parseAccount_ok isAccount
  exact ⟨rfl, not_not.mp ((revertIf_ok_iff _ _ _).mp token),
    not_not.mp ((revertIf_ok_iff _ _ _).mp decimals), checkRates_ok checked⟩

/-! ## Advancing -/

/-- What a transfer does to the account. -/
def transferOp (account : Address) (transfer : TokenTransfer) : Score.ScoreOp :=
  .transfer transfer.blockNumber (inflowOf account transfer) (outflowOf account transfer)

/-- The operations of the transfers that bring something in or take something out. -/
def transferOps (account : Address) (transfers : List TokenTransfer) : List Score.ScoreOp :=
  (transfers.filter fun transfer =>
    inflowOf account transfer ≠ 0 ∨ outflowOf account transfer ≠ 0).map (transferOp account)

theorem walk_run {walk last : TransferWalk}
    (run : transfers.foldlM (applyCheckpointTransfer scored account cursor targetBlock) walk =
      .ok last) :
    ((transferOps account transfers).map (ScoreUpdate.mk scored.rates)).foldlM
        (ScoreUpdate.apply scored.decimals) walk.state = .ok last.state ∧
      ∀ transfer ∈ transfers, transfer.blockNumber ≤ targetBlock := by
  induction transfers generalizing walk with
  | nil =>
      cases (pure_ok_iff _ _).mp run
      exact ⟨rfl, by simp⟩
  | cons transfer rest ih =>
      rw [List.foldlM_cons] at run
      obtain ⟨middle, first, run⟩ := (bind_ok_iff _ _ _).mp run
      obtain ⟨later, inside⟩ := ih run
      obtain ⟨_, inOrder, first⟩ := (bind_ok_iff _ _ _).mp first
      obtain ⟨state, applied, result⟩ := (bind_ok_iff _ _ _).mp first
      cases (pure_ok_iff _ _).mp result
      rw [revertIf_ok_iff, not_or, not_or] at inOrder
      refine ⟨?_, List.forall_mem_cons.mpr ⟨Nat.not_lt.mp inOrder.2.1, inside⟩⟩
      rcases (ite_ok_iff _ _ _ _).mp applied with ⟨moves, applied⟩ | ⟨idle, applied⟩
      · have listed : transferOps account (transfer :: rest) =
            transferOp account transfer :: transferOps account rest := by
          simp only [transferOps, List.filter_cons, decide_eq_true moves, if_true, List.map_cons]
        rw [listed, List.map_cons, List.foldlM_cons]
        exact (bind_ok_iff _ _ _).mpr ⟨state, (mapError_ok_iff _ _ _).mp applied, later⟩
      · cases (pure_ok_iff _ _).mp applied
        have listed : transferOps account (transfer :: rest) = transferOps account rest := by
          simp only [transferOps, List.filter_cons, decide_eq_false idle, Bool.false_eq_true,
            if_false]
        rw [listed]
        exact later

/-- An advance goes on with what the state has accumulated, over the transfers. -/
theorem Stores.advanced {next : TokenCheckpoint} {targetBlockHash : String}
    (stores : Stores held checkpoint known state)
    (run : advanceTokenCheckpoint checkpoint scored account transfers targetBlock targetBlockHash =
      .ok next) :
    KnownAt scored.rates state.lastBlock known ∧ next.token = checkpoint.token ∧ next.decimals = checkpoint.decimals ∧
      ∃ final, final.lastBlock = targetBlock ∧
        final.balance = balanceAt state.balance (transferOps account transfers) targetBlock ∧
        Stores (heldThrough held state.lastBlock state.balance (transferOps account transfers)) next
          scored.rates final := by
  obtain ⟨_, -, run⟩ := (bind_ok_iff _ _ _).mp run
  obtain ⟨_, valid, run⟩ := (bind_ok_iff _ _ _).mp run
  obtain ⟨⟨cursor, read⟩, validated, run⟩ := (bind_ok_iff _ _ _).mp run
  obtain ⟨_, -, run⟩ := (bind_ok_iff _ _ _).mp run
  obtain ⟨walk, walked, run⟩ := (bind_ok_iff _ _ _).mp run
  obtain ⟨final, advanced, result⟩ := (bind_ok_iff _ _ _).mp run
  cases (pure_ok_iff _ _).mp result
  obtain ⟨isRead, -, decimals, knownAt⟩ := stores.validated validated
  cases isRead
  have ascending : Ascending scored.rates :=
    not_not.mp ((revertIf_ok_iff _ _ _).mp ((mapError_ok_iff _ _ _).mp valid))
  obtain ⟨transferred, inside⟩ := walk_run walked
  have advanceRun := (mapError_ok_iff _ _ _).mp advanced
  obtain ⟨-, balance, lastBlock⟩ := advanceAccount_frame advanceRun
  have transferBalance := updates_last transferred
  have ops_eq : ((transferOps account transfers).map (ScoreUpdate.mk scored.rates)).map
      ScoreUpdate.op = transferOps account transfers := by
    rw [List.map_map]
    exact List.map_id _
  have opsInside : ∀ op ∈ transferOps account transfers, op.block ≤ targetBlock := by
    intro op member
    obtain ⟨transfer, isTransfer, rfl⟩ := List.mem_map.mp member
    exact inside transfer (List.mem_of_mem_filter isTransfer)
  -- the advance at the end is one more operation
  have whole : ((transferOps account transfers ++ [Score.ScoreOp.advance targetBlock]).map
      (ScoreUpdate.mk scored.rates)).foldlM (ScoreUpdate.apply scored.decimals) state =
        .ok final := by
    rw [List.map_append, List.foldlM_append]
    refine (bind_ok_iff _ _ _).mpr ⟨walk.state, transferred, ?_⟩
    exact (bind_ok_iff _ _ _).mpr ⟨final, advanceRun, rfl⟩
  rw [ops_eq, ← balanceAt_all opsInside] at transferBalance
  have accumulated := ops_accumulate ascending knownAt whole (decimals ▸ stores.accumulated)
  refine ⟨knownAt, rfl, rfl, final, lastBlock, balance.trans transferBalance,
    congrArg decimalText lastBlock.symm, rfl, rfl, ?_⟩
  rw [decimals]
  refine accumulated.congr fun block _ => ?_
  unfold heldThrough
  rw [balanceAt_advance]

/-- At its cursor a checkpoint projects what has been accumulated. -/
theorem Stores.numerator {numerator : Nat} (stores : Stores held checkpoint known state)
    (ascending : Ascending scored.rates)
    (run : tokenNumerator checkpoint scored state.lastBlock = .ok numerator) :
    KnownAt scored.rates state.lastBlock known ∧
      numerator = expectedNumerator held scored.decimals scored.rates state.lastBlock := by
  obtain ⟨⟨cursor, read⟩, validated, run⟩ := (bind_ok_iff _ _ _).mp run
  obtain ⟨_, -, projected⟩ := (bind_ok_iff _ _ _).mp run
  obtain ⟨isRead, -, decimals, knownAt⟩ := stores.validated validated
  cases isRead
  have expected := projectedNumerator_accumulates ascending (Nat.le_refl state.lastBlock)
    (fun block reached early => absurd reached (Nat.not_le.mpr early))
    ((decimals ▸ stores.accumulated).extend knownAt)
  exact ⟨knownAt, Except.ok.inj (((mapError_ok_iff _ _ _).mp projected).symm.trans expected)⟩

theorem newTokenCheckpoint_stores {startingBlock startingBalance : Nat} {startingBlockHash : String}
    (nothing : ∀ block < startingBlock, held block = 0) :
    Stores held (newTokenCheckpoint scored startingBlock startingBalance startingBlockHash)
      scored.rates (.fresh startingBalance startingBlock) where
  cursor := rfl
  rates := rfl
  account := rfl
  accumulated := fresh_accumulated startingBlock nothing

end Reading

end Usd8Core.ScoreApi
