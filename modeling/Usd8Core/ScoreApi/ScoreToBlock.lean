import Usd8Core.Checkpoint.ScoreSource
import Usd8Core.ScoreApi.TokenCheckpoint

/-!
# Scores up to a block

`score_to_block` brings the checkpoint of each contributing token to a block, from what was
stored or from the first block that contributes.  Wherever it starts, the numerator is the sum
over the rate segments of what the account held.
-/

set_option autoImplicit false

namespace Usd8Core.ScoreApi

open Std
open Usd8Core.Checkpoint (transfersBetween transfersBetween_split)
open Usd8Core.Engine
open Usd8Core.JobApi (eqIgnoreAsciiCase)
open Usd8Core.Lib.ByteWords
open Usd8Core.Lib.CheckedCall
open Usd8Core.Lib.OracleCall
open Usd8Core.Score

/-- `IncrementalScoreError`, with the errors of the chain as their readers return them. -/
inductive ComputeError where
  | incremental (error : IncrementalScoreError)
  | history (error : HistoryError)
  | anchor (error : AnchorError)
  | anchorChanged (name : String) (block : Nat) (before after : Hash)

def MAX_PARALLEL_TOKEN_REPLAYS : Nat := 4

def SCORE_MAX_INITIAL_LOG_RANGE : Nat := 5000

def LOG_RESULT_CAP : Nat := 1000

def firstContributingBlock (scored : Checkpoint.ScoredToken) (target : Nat) : Option Nat :=
  (scored.rates.find? fun point => point.rate ≠ 0 ∧ point.fromBlock < target).map
    RatePoint.fromBlock

/-- What the replay of one token returns. -/
structure TokenReplay where
  checkpoint : Option TokenCheckpoint
  numerator : Nat
  metrics : LogMetrics
  advanced : Bool
  missed : Bool

structure ScoreReplay where
  nextTokens : List TokenCheckpoint
  numerator : Nat
  metrics : LogMetrics
  advanced : Bool
  missed : Bool

def ScoreReplay.empty : ScoreReplay := ⟨[], 0, .default, false, false⟩

def ScoreReplay.add (score : ScoreReplay) (replay : TokenReplay) : ScoreReplay :=
  ⟨score.nextTokens ++ replay.checkpoint.toList, score.numerator + replay.numerator,
    mergeLogMetrics score.metrics replay.metrics, score.advanced || replay.advanced,
    score.missed || replay.missed⟩

section Replay

variable {σ : Type}

def incremental {α : Type} (result : Incremental α) : Asking σ ComputeError α :=
  liftResult (result.mapError .incremental)

variable (client : RpcClient σ) (abi : AbiLibrary) (account : Address)

/-- The stored checkpoint, if the chain still has the block of its cursor, or a new one. -/
def startingCheckpoint (scored : Checkpoint.ScoredToken) (startingBlock : Nat) :
    Option TokenCheckpoint → Asking σ ComputeError TokenCheckpoint
  | some stored => do
      let cursor ← incremental (checkpointCursor stored)
      let current ← mapFailure .anchor (blockByNumber client cursor)
      incremental (revertIf
        (eqIgnoreAsciiCase (hashHex current.hash) stored.cursorBlockHash = false)
        .checkpointBlockHash)
      pure stored
  | none => do
      let balance ← mapFailure .history (balanceOfAt client abi scored.token account startingBlock)
      let block ← mapFailure .anchor (blockByNumber client startingBlock)
      pure (newTokenCheckpoint scored startingBlock balance (hashHex block.hash))

/-- The checkpoint with its cursor at the target. -/
def advanceTo (scored : Checkpoint.ScoredToken) (checkpoint : TokenCheckpoint) (cursor targetBlock : Nat)
    (targetBlockHash : String) : Asking σ ComputeError (TokenCheckpoint × LogMetrics × Bool) :=
  if cursor < targetBlock then do
    let (transfers, metrics) ← mapFailure .history
      (erc20TransfersForAccounts client abi scored.token (TreeSet.ofList [account] _) (cursor + 1)
        targetBlock SCORE_MAX_INITIAL_LOG_RANGE LOG_RESULT_CAP)
    let checkpoint ← incremental
      (advanceTokenCheckpoint checkpoint scored account transfers targetBlock targetBlockHash)
    pure (checkpoint, metrics, true)
  else do
    incremental (revertIf (cursor > targetBlock) .cursorRollback)
    pure (checkpoint, .default, false)

/-- `Some` where the token contributes. -/
def replayToken (previousTokens : List TokenCheckpoint) (targetBlock : Nat)
    (targetBlockHash : String) (scored : Checkpoint.ScoredToken) : Asking σ ComputeError TokenReplay :=
  match firstContributingBlock scored targetBlock with
  | none => pure ⟨none, 0, .default, false, false⟩
  | some startingBlock => do
      let stored := previousTokens.find? fun item => item.token == addressHex scored.token
      let checkpoint ← startingCheckpoint client abi account scored startingBlock stored
      let cursor ← incremental (checkpointCursor checkpoint)
      let (checkpoint, metrics, advanced) ←
        advanceTo client abi account scored checkpoint cursor targetBlock targetBlockHash
      let actualBalance ← mapFailure .history
        (balanceOfAt client abi scored.token account targetBlock)
      let balance ← incremental (checkpointBalance checkpoint)
      incremental (revertIf (balance ≠ actualBalance) (.malformed "replayedBalance"))
      let numerator ← incremental (tokenNumerator checkpoint scored targetBlock)
      pure ⟨some checkpoint, numerator, metrics, advanced, stored.isNone⟩

/-- The tokens of a chunk are replayed concurrently. -/
def scoreToBlock (scoredTokens : List Checkpoint.ScoredToken) (previousTokens : List TokenCheckpoint)
    (targetBlock : Nat) (targetBlockHash : String) : Asking σ ComputeError ScoreReplay :=
  (chunks MAX_PARALLEL_TOKEN_REPLAYS scoredTokens.length scoredTokens).foldlM
    (fun score chunk => do
      let replayed ← chunk.mapM
        (replayToken client abi account previousTokens targetBlock targetBlockHash)
      pure (replayed.foldl ScoreReplay.add score)) ScoreReplay.empty

end Replay

/-! ## What an account held -/

section Holdings

variable {chain : LogChain} {token account : Address} {history : Erc20History chain token}
  {start cursor block targetBlock : Nat}

/-- The balance at the end of a block, by the transfers since the end of `start`. -/
def holding {chain : LogChain} {token : Address} (history : Erc20History chain token)
    (account : Address) (start block : Nat) : Nat :=
  balanceAt (history.ledger.bookAt chain start account)
    (transferOps account (transfersBetween history (start + 1) block)) block

def heldFrom {chain : LogChain} {token : Address} (history : Erc20History chain token)
    (account : Address) (start block : Nat) : Nat :=
  if block < start then 0 else holding history account start block

theorem transferOps_append (account : Address) (first second : List TokenTransfer) :
    transferOps account (first ++ second) =
      transferOps account first ++ transferOps account second := by
  rw [transferOps, List.filter_append, List.map_append]
  rfl

theorem mem_transferOps {fromBlock : Nat} {op : Score.ScoreOp}
    (member : op ∈ transferOps account (transfersBetween history fromBlock block)) :
    fromBlock ≤ op.block ∧ op.block ≤ block := by
  obtain ⟨transfer, isTransfer, rfl⟩ := List.mem_map.mp member
  obtain ⟨log, isLog, rfl⟩ := List.mem_map.mp (List.mem_of_mem_filter isTransfer)
  have inside := (LogChain.mem_between.mp isLog).2.2
  change fromBlock ≤ log.blockNumber ∧ log.blockNumber ≤ block
  omega

theorem balanceAt_later {balance : Nat} {ops later : List Score.ScoreOp}
    (late : ∀ op ∈ later, block < op.block) :
    balanceAt balance (ops ++ later) block = balanceAt balance ops block := by
  have none : (later.filter fun op => op.block ≤ block) = [] := by
    rw [List.filter_eq_nil_iff]
    intro op member
    simpa using late op member
  rw [balanceAt, balanceAt, List.filter_append, none, List.append_nil]

theorem balanceAt_earlier {balance : Nat} {earlier ops : List Score.ScoreOp}
    (early : ∀ op ∈ earlier, op.block ≤ cursor) (forward : cursor ≤ block) :
    balanceAt balance (earlier ++ ops) block =
      balanceAt (balanceAt balance earlier cursor) ops block := by
  have all : (earlier.filter fun op => op.block ≤ block) = earlier :=
    List.filter_eq_self.mpr fun op member => decide_eq_true ((early op member).trans forward)
  rw [balanceAt, List.filter_append, all, List.foldl_append, balanceAt_all early]
  rfl

/-- Going on from a block gives what starting before it gives. -/
theorem holding_split (begun : start ≤ cursor) (forward : cursor ≤ block)
    (inside : block ≤ targetBlock) :
    balanceAt (holding history account start cursor)
        (transferOps account (transfersBetween history (cursor + 1) targetBlock)) block =
      holding history account start block := by
  have cut : transfersBetween history (cursor + 1) targetBlock =
      transfersBetween history (cursor + 1) block ++
        transfersBetween history (block + 1) targetBlock :=
    transfersBetween_split (by omega) inside
  have whole : transfersBetween history (start + 1) block =
      transfersBetween history (start + 1) cursor ++
        transfersBetween history (cursor + 1) block :=
    transfersBetween_split (by omega) forward
  have late : ∀ op ∈ transferOps account (transfersBetween history (block + 1) targetBlock),
      block < op.block := fun op member => (mem_transferOps member).1
  have early : ∀ op ∈ transferOps account (transfersBetween history (start + 1) cursor),
      op.block ≤ cursor := fun op member => (mem_transferOps member).2
  rw [cut, transferOps_append, balanceAt_later late, holding, holding, whole, transferOps_append,
    balanceAt_earlier early forward]

theorem holding_start : holding history account start start =
    history.ledger.bookAt chain start account := by
  have nothing : transfersBetween history (start + 1) start = [] := by
    rw [transfersBetween, Nat.sub_self]
    rfl
  rw [holding, nothing]
  rfl

/-- Transfers that do not touch the account do nothing to it. -/
theorem transferOps_touching {set : AccountSet} (contains : set.contains account = true) :
    transferOps account ((history.touching set cursor targetBlock).map history.tokenTransfer) =
      transferOps account (transfersBetween history (cursor + 1) targetBlock) := by
  have touching : (history.touching set cursor targetBlock).map history.tokenTransfer =
      (transfersBetween history (cursor + 1) targetBlock).filter fun transfer =>
        set.contains transfer.sender || set.contains transfer.recipient := by
    rw [transfersBetween, List.filter_map, Erc20History.touching, Nat.add_sub_add_right]
    rfl
  rw [touching, transferOps, transferOps, List.filter_filter]
  congr 1
  refine List.filter_congr fun transfer _ => ?_
  by_cases received : transfer.recipient = account
  · simp [received, contains]
  · by_cases sent : transfer.sender = account
    · simp [sent, contains]
    · simp [inflowOf, outflowOf, received, sent]

end Holdings

/-! ## Checkpoints that follow a history -/

/-- The first point that pays is at the block. -/
def PaysFrom (rates : List RatePoint) (start : Nat) : Prop :=
  (rates.find? fun point => point.rate ≠ 0).map RatePoint.fromBlock = some start

/-- The checkpoint stores what the account held from `start` up to the cursor. -/
structure Tracks {chain : LogChain} {token : Address} (history : Erc20History chain token)
    (account : Address) (start cursor : Nat) (checkpoint : TokenCheckpoint) : Prop where
  begun : start ≤ cursor
  stored : ∃ known state, Stores (heldFrom history account start) checkpoint known state ∧
    PaysFrom known start ∧ state.lastBlock = cursor ∧
    state.balance = holding history account start cursor

section Tracking

variable {chain : LogChain} {scored : Checkpoint.ScoredToken} {account : Address}
  {history : Erc20History chain scored.token} {start other cursor targetBlock : Nat}
  {rates known : List RatePoint} {checkpoint next : TokenCheckpoint}

theorem PaysFrom.extend {block : Nat} (pays : PaysFrom known start)
    (knownAt : KnownAt rates block known) : PaysFrom rates start := by
  obtain ⟨more, rfl, -⟩ := knownAt
  unfold PaysFrom at pays ⊢
  obtain ⟨point, found, isStart⟩ := Option.map_eq_some_iff.mp pays
  rw [List.find?_append, found, Option.some_or, Option.map_some, isStart]

theorem paysFrom_unique (pays : PaysFrom rates start) (others : PaysFrom rates other) :
    start = other :=
  Option.some.inj (pays.symm.trans others)

theorem firstContributingBlock_pays (ascending : Ascending scored.rates)
    (first : firstContributingBlock scored targetBlock = some start) :
    PaysFrom scored.rates start ∧ start < targetBlock := by
  unfold firstContributingBlock at first
  unfold PaysFrom
  generalize scored.rates = rates at ascending first
  induction rates with
  | nil => simp at first
  | cons point rest ih =>
      by_cases idle : point.rate = 0
      · simp only [List.find?_cons, idle, ne_eq, not_true_eq_false, false_and, decide_false]
          at first ⊢
        exact ih ascending.tail first
      · by_cases early : point.fromBlock < targetBlock
        · simp only [List.find?_cons, idle, early, ne_eq, not_false_eq_true, true_and,
            decide_true, Option.map_some, Option.some.injEq] at first ⊢
          exact ⟨first, first ▸ early⟩
        · exfalso
          simp only [List.find?_cons, idle, early, ne_eq, not_false_eq_true, true_and,
            decide_false] at first
          obtain ⟨found, isFound, -⟩ := Option.map_eq_some_iff.mp first
          have passes := List.find?_some isFound
          have later := ascending.head_lt found (List.mem_of_find?_eq_some isFound)
          simp only [decide_eq_true_eq] at passes
          omega

/-- What a checkpoint that follows the history becomes by an advance over its transfers. -/
theorem Tracks.advance {set : AccountSet} {targetBlockHash : String}
    (tracks : Tracks history account start cursor checkpoint)
    (contains : set.contains account = true) (forward : cursor < targetBlock)
    (run : advanceTokenCheckpoint checkpoint scored account
      ((history.touching set cursor targetBlock).map history.tokenTransfer) targetBlock
      targetBlockHash = .ok next) :
    Tracks history account start targetBlock next ∧ next.token = checkpoint.token := by
  obtain ⟨begun, known, state, stores, pays, rfl, balance⟩ := tracks
  obtain ⟨knownAt, token, decimals, final, lastBlock, finalBalance, advanced⟩ :=
    stores.advanced run
  rw [transferOps_touching contains, balance] at finalBalance advanced
  rw [holding_split begun forward.le (Nat.le_refl _)] at finalBalance
  refine ⟨⟨begun.trans forward.le, scored.rates, final, ?_, pays.extend knownAt, lastBlock,
    finalBalance⟩, token⟩
  refine { advanced with accumulated := advanced.accumulated.congr fun block early => ?_ }
  rw [lastBlock] at early
  unfold heldThrough heldFrom
  by_cases before : block < state.lastBlock
  · rw [if_pos before]
  · rw [if_neg before, holding_split begun (by omega) early.le, if_neg (by omega)]

theorem Tracks.balance {balance : Nat} (tracks : Tracks history account start cursor checkpoint)
    (run : checkpointBalance checkpoint = .ok balance) :
    balance = holding history account start cursor := by
  obtain ⟨begun, known, state, stores, pays, -, isBalance⟩ := tracks
  rw [stores.balance_ok run, isBalance]

theorem Tracks.cursor_ok {read : Nat} (tracks : Tracks history account start cursor checkpoint)
    (run : checkpointCursor checkpoint = .ok read) : read = cursor := by
  obtain ⟨begun, known, state, stores, pays, lastBlock, -⟩ := tracks
  rw [stores.cursor_ok run, lastBlock]

/-- The numerator at the cursor, which the start is the first contributing block of. -/
theorem Tracks.numerator {numerator : Nat}
    (tracks : Tracks history account other targetBlock checkpoint)
    (ascending : Ascending scored.rates)
    (first : firstContributingBlock scored targetBlock = some start)
    (run : tokenNumerator checkpoint scored targetBlock = .ok numerator) :
    other = start ∧ numerator = expectedNumerator (heldFrom history account start) scored.decimals
      scored.rates targetBlock := by
  obtain ⟨begun, known, state, stores, pays, rfl, balance⟩ := tracks
  obtain ⟨knownAt, isNumerator⟩ := stores.numerator ascending run
  have same : other = start :=
    paysFrom_unique (pays.extend knownAt) (firstContributingBlock_pays ascending first).1
  exact ⟨same, same ▸ isNumerator⟩

theorem newTokenCheckpoint_tracks (ascending : Ascending scored.rates)
    (first : firstContributingBlock scored targetBlock = some start) (startingBlockHash : String) :
    Tracks history account start start (newTokenCheckpoint scored start
      (history.ledger.bookAt chain start account) startingBlockHash) where
  begun := Nat.le_refl start
  stored := ⟨scored.rates, .fresh (history.ledger.bookAt chain start account) start,
    newTokenCheckpoint_stores fun _ early => if_pos early,
    (firstContributingBlock_pays ascending first).1, rfl, holding_start.symm⟩

end Tracking

/-! ## Replays -/

/-- The sum over the rate segments, where the token contributes. -/
def expectedScore {chain : LogChain} (scored : Checkpoint.ScoredToken)
    (history : Erc20History chain scored.token) (account : Address) (targetBlock : Nat) : Nat :=
  match firstContributingBlock scored targetBlock with
  | none => 0
  | some start =>
      expectedNumerator (heldFrom history account start) scored.decimals scored.rates targetBlock

/-- A contributing token has a checkpoint that follows its history up to the block. -/
def FollowsTo {chain : LogChain} (scored : Checkpoint.ScoredToken)
    (history : Erc20History chain scored.token) (account : Address) (targetBlock : Nat) :
    Option TokenCheckpoint → Prop
  | none => firstContributingBlock scored targetBlock = none
  | some checkpoint => checkpoint.token = addressHex scored.token ∧
      ∃ start, firstContributingBlock scored targetBlock = some start ∧
        Tracks history account start targetBlock checkpoint

section Replays

variable {σ : Type} {client : RpcClient σ} {abi : AbiLibrary} {chain : LogChain}
  {scored : Checkpoint.ScoredToken} {account : Address} {history : Erc20History chain scored.token}
  {targetBlock : Nat} {targetBlockHash : String} {previousTokens : List TokenCheckpoint}

/-- What a computation that ends with a value ends with. -/
abbrev Computes {α : Type} (post : α → Prop) (call : Asking σ ComputeError α) : Prop :=
  Ends post (fun _ => True) call

theorem computes_incremental {α : Type} (result : Incremental α) :
    Computes (fun value => result = .ok value) (incremental result : Asking σ ComputeError α) :=
  ends_liftResult (fun _ run => (mapError_ok_iff _ _ _).mp run) fun _ _ => trivial

theorem computes_mapFailure {ε α : Type} {post : α → Prop} {change : ε → ComputeError}
    {call : Asking σ ε α} (ends : Ends post (fun _ => True) call) :
    Computes post (mapFailure change call) :=
  ends.mapFailure fun _ _ => trivial

/-- The stored checkpoints of the token follow its history, each from its own start. -/
def StoredFollow {chain : LogChain} {token : Address} (history : Erc20History chain token)
    (account : Address) (previousTokens : List TokenCheckpoint) : Prop :=
  ∀ stored ∈ previousTokens, stored.token = addressHex token →
    ∃ start cursor, Tracks history account start cursor stored

/-- Stored or new, the checkpoint to start from follows the history. -/
theorem computes_startingCheckpoint {start : Nat} (standard : abi.Standard)
    (valid : history.ledger.Valid chain) (balances : AnswersErc20 client history)
    (ascending : Ascending scored.rates)
    (first : firstContributingBlock scored targetBlock = some start)
    (follow : StoredFollow history account previousTokens) :
    Computes (fun checkpoint => checkpoint.token = addressHex scored.token ∧
        ∃ other cursor, Tracks history account other cursor checkpoint)
      (startingCheckpoint client abi account scored start
        (previousTokens.find? fun item => item.token == addressHex scored.token)) := by
  cases found : previousTokens.find? fun item => item.token == addressHex scored.token with
  | some stored =>
      have isToken : stored.token = addressHex scored.token := by
        simpa using List.find?_some found
      have tracked := follow stored (List.mem_of_find?_eq_some found) isToken
      refine ends_true.bind fun cursor _ => ends_true.bind fun current _ => ?_
      exact ends_true.bind fun _ _ => ends_pure ⟨isToken, tracked⟩
  | none =>
      refine (computes_mapFailure (yields_balanceOfAt standard valid balances)).bind
        fun balance isBalance => ?_
      refine ends_true.bind fun block _ => ends_pure ⟨rfl, start, start, ?_⟩
      rw [isBalance]
      exact newTokenCheckpoint_tracks ascending first _

theorem computes_advanceTo {start cursor : Nat} {checkpoint : TokenCheckpoint}
    (standard : abi.Standard) (ordered : chain.Ordered)
    (answers : ∀ filter, AnswersCanonically client chain filter LOG_RESULT_CAP)
    (inWord : targetBlock ≤ maxU64) (tracks : Tracks history account start cursor checkpoint) :
    Computes (fun result => Tracks history account start targetBlock result.1 ∧
        result.1.token = checkpoint.token)
      (advanceTo client abi account scored checkpoint cursor targetBlock targetBlockHash) := by
  refine ends_ite (fun forward => ?_) fun reached => ?_
  · have contains : (TreeSet.ofList [account] compareAddress).contains account = true := by simp
    refine (computes_mapFailure (yields_erc20Transfers history standard ordered answers _ inWord
      forward)).bind fun scanned isScanned => ?_
    refine (computes_incremental _).bind fun next advanced => ends_pure ?_
    rw [isScanned] at advanced
    exact tracks.advance contains forward advanced
  · refine (computes_incremental _).bind fun _ notAhead => ends_pure ⟨?_, rfl⟩
    have same : cursor = targetBlock := by
      have bound := (revertIf_ok_iff _ _ _).mp notAhead
      omega
    exact same ▸ tracks

/-- Wherever a replay starts, it ends with what the account held up to the target. -/
theorem computes_replayToken (standard : abi.Standard) (ordered : chain.Ordered)
    (answers : ∀ filter, AnswersCanonically client chain filter LOG_RESULT_CAP)
    (valid : history.ledger.Valid chain) (balances : AnswersErc20 client history)
    (ascending : Ascending scored.rates) (inWord : targetBlock ≤ maxU64)
    (follow : StoredFollow history account previousTokens) :
    Computes (fun replay => FollowsTo scored history account targetBlock replay.checkpoint ∧
        replay.numerator = expectedScore scored history account targetBlock)
      (replayToken client abi account previousTokens targetBlock targetBlockHash scored) := by
  unfold replayToken expectedScore
  cases first : firstContributingBlock scored targetBlock with
  | none => exact ends_pure ⟨first, rfl⟩
  | some start =>
      refine (computes_startingCheckpoint standard valid balances ascending first follow).bind
        fun checkpoint isStarted => ?_
      obtain ⟨isToken, other, cursor, tracks⟩ := isStarted
      refine (computes_incremental _).bind fun read isCursor => ?_
      rw [tracks.cursor_ok isCursor]
      refine (computes_advanceTo standard ordered answers inWord tracks).bind
        fun result isResult => ?_
      obtain ⟨next, metrics, advanced⟩ := result
      obtain ⟨reached, sameToken⟩ := isResult
      dsimp only at reached sameToken ⊢
      refine ends_true.bind fun actual _ => ?_
      refine ends_true.bind fun balance _ => ?_
      refine ends_true.bind fun _ _ => ?_
      have expected (numerator : Nat) (projected : tokenNumerator next scored targetBlock =
          .ok numerator) : other = start ∧ numerator = expectedNumerator
            (heldFrom history account start) scored.decimals scored.rates targetBlock :=
        reached.numerator ascending first projected
      generalize tokenNumerator next scored targetBlock = projection at expected ⊢
      refine (computes_incremental projection).bind fun numerator projected => ?_
      obtain ⟨rfl, isNumerator⟩ := expected numerator projected
      exact ends_pure ⟨⟨sameToken.trans isToken, other, first, reached⟩, isNumerator⟩

/-! ## All tokens -/

/-- The replays of the tokens one by one. -/
theorem foldl_add (replays : List TokenReplay) (score : ScoreReplay) :
    (replays.foldl ScoreReplay.add score).nextTokens =
        score.nextTokens ++ replays.flatMap (·.checkpoint.toList) ∧
      (replays.foldl ScoreReplay.add score).numerator =
        score.numerator + (replays.map TokenReplay.numerator).sum := by
  induction replays generalizing score with
  | nil => simp
  | cons replay rest ih =>
      obtain ⟨tokens, numerator⟩ := ih (score.add replay)
      rw [List.foldl_cons, tokens, numerator]
      simp [ScoreReplay.add, Nat.add_assoc]

end Replays

end Usd8Core.ScoreApi
