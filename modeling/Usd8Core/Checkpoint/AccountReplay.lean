import Usd8Core.Checkpoint.EarnedScore
import Usd8Core.Checkpoint.SoundTokens

/-!
# The replay of one account

A replay takes the accounts of a token through its transfers.  What it does to one account is a
run of the score accumulator, over the operations of the transfers of that account; so however
the replay was cut into advances, the state is that of one run from where the account was first
seen.
-/

set_option autoImplicit false

namespace Usd8Core.Checkpoint

open Std
open Usd8Core.Engine
open Usd8Core.Lib.BalanceHistory (Move applyMoves_flow)
open Usd8Core.Lib.ByteWords
open Usd8Core.Lib.CheckedCall
open Usd8Core.Lib.OracleCall
open Usd8Core.Score

/-! ## Operations of an account -/

/-- What is sent is taken before what is received is added. -/
def deltaOps (account : Address) (transfer : TokenTransfer) : List ScoreOp :=
  (if transfer.sender = account then [.transfer transfer.blockNumber 0 transfer.value] else []) ++
    if transfer.recipient = account then [.transfer transfer.blockNumber transfer.value 0] else []

def entryOf (accounts : Accounts) (account : Address) : AccountScoreState :=
  accounts[account]?.getD (.fresh 0 0)

section Entries

variable {decimals block value : Nat} {rates : List RatePoint} {tracked : Option AccountSet}
  {accounts next : Accounts} {account address : Address}

def IsTracked (tracked : Option AccountSet) (account : Address) : Prop :=
  ∀ set, tracked = some set → set.contains account = true

theorem applyTransferDelta_entry (kept : account ≠ .zero) (isTracked : IsTracked tracked account)
    {inflow : Bool} (run : applyTransferDelta decimals rates tracked accounts address block value
      inflow = .ok next) :
    ((if address = account then
        [ScoreOp.transfer block (if inflow then value else 0) (if inflow then 0 else value)]
      else []).map (ScoreUpdate.mk rates)).foldlM (ScoreUpdate.apply decimals)
        (entryOf accounts account) = .ok (entryOf next account) := by
  by_cases isAccount : address = account
  · subst isAccount
    have counted : ¬ (address = .zero ∨
        (tracked.any fun set => decide ¬ set.contains address = true) = true) := by
      rintro (isZero | passed)
      · exact kept isZero
      · obtain ⟨set, isSet, untracked⟩ := (Option.any_eq_true _ _).mp passed
        exact of_decide_eq_true untracked (isTracked set isSet)
    rw [applyTransferDelta, if_neg counted] at run
    obtain ⟨state, applied, result⟩ := (bind_ok_iff _ _ _).mp run
    cases (pure_ok_iff _ _).mp result
    rw [if_pos rfl, List.map_singleton, List.foldlM_cons]
    refine (bind_ok_iff _ _ _).mpr ⟨state, ?_, ?_⟩
    · cases inflow with
      | true => exact (mapError_ok_iff _ _ _).mp applied
      | false => exact (mapError_ok_iff _ _ _).mp applied
    · simp [entryOf, pure, Except.pure]
  · rw [if_neg isAccount]
    have same : entryOf next account = entryOf accounts account := by
      unfold applyTransferDelta at run
      rcases (ite_ok_iff _ _ _ _).mp run with ⟨-, run⟩ | ⟨-, run⟩
      · rw [← (pure_ok_iff _ _).mp run]
      · obtain ⟨state, -, result⟩ := (bind_ok_iff _ _ _).mp run
        rw [← (pure_ok_iff _ _).mp result, entryOf, TreeMap.getElem?_insert, if_neg]
        · rfl
        · exact fun equal => isAccount (LawfulEqCmp.eq_of_compare equal)
    rw [same]
    rfl

/-- The entry of an account goes through the operations of its transfers. -/
theorem applyTransfers_entry (kept : account ≠ .zero) (isTracked : IsTracked tracked account)
    (transfers : List TokenTransfer)
    (run : applyTransfers decimals rates tracked accounts transfers = .ok next) :
    ((transfers.flatMap (deltaOps account)).map (ScoreUpdate.mk rates)).foldlM
      (ScoreUpdate.apply decimals) (entryOf accounts account) = .ok (entryOf next account) := by
  induction transfers generalizing accounts with
  | nil =>
      rw [← (pure_ok_iff _ _).mp run]
      rfl
  | cons transfer rest ih =>
      rw [applyTransfers, List.foldlM_cons] at run
      obtain ⟨after, first, run⟩ := (bind_ok_iff _ _ _).mp run
      obtain ⟨between, sent, received⟩ := (bind_ok_iff _ _ _).mp first
      have out := applyTransferDelta_entry kept isTracked sent
      have into := applyTransferDelta_entry kept isTracked received
      rw [List.flatMap_cons, deltaOps, List.map_append, List.map_append, List.foldlM_append,
        List.foldlM_append]
      simp only [Bool.false_eq_true, if_false, if_true] at out into
      exact (bind_ok_iff _ _ _).mpr ⟨_, (bind_ok_iff _ _ _).mpr ⟨_, out, into⟩, ih run⟩

end Entries

/-! ## Operations and the book -/

section Ops

variable {chain : LogChain} {token account : Address} {history : Erc20History chain token}

/-- The operations of a transfer log of the token. -/
def logOps {chain : LogChain} {token : Address} (history : Erc20History chain token)
    (account : Address) (log : RpcLog) : List ScoreOp :=
  deltaOps account (history.tokenTransfer log)

theorem logOps_mirrors (history : Erc20History chain token) (kept : account ≠ .zero) :
    Mirrors history.ledger account (logOps history account) where
  placed log op member := by
    unfold logOps deltaOps at member
    rcases List.mem_append.mp member with sent | received
    · split at sent
      · rw [List.mem_singleton.mp sent]
        rfl
      · cases sent
    · split at received
      · rw [List.mem_singleton.mp received]
        rfl
      · cases received
  credits log book covered := by
    have flow := applyMoves_flow kept _ book covered
    have enough : (history.transfer log).sender = account →
        (history.transfer log).value ≤ book account := by
      intro isSender
      have taken : (history.transfer log).sender = .zero ∨
          (history.transfer log).value ≤ book (history.transfer log).sender := covered.1
      rw [isSender] at taken
      exact taken.resolve_left kept
    simp only [Erc20History.ledger, Lib.BalanceHistory.inflow,
      Lib.BalanceHistory.outflow] at flow ⊢
    by_cases isSender : (history.transfer log).sender = account
    · by_cases isRecipient : (history.transfer log).recipient = account
      · simp_all [logOps, deltaOps, Erc20History.tokenTransfer, ScoreOp.credit]
      · simp_all [logOps, deltaOps, Erc20History.tokenTransfer, ScoreOp.credit]
        omega
    · by_cases isRecipient : (history.transfer log).recipient = account <;>
        simp_all [logOps, deltaOps, Erc20History.tokenTransfer, ScoreOp.credit]

theorem transfersBetween_ops (fromBlock toBlock : Nat) :
    (transfersBetween history fromBlock toBlock).flatMap (deltaOps account) =
      windowOps history.ledger chain (logOps history account) fromBlock toBlock := by
  rw [transfersBetween, windowOps, List.flatMap_map]
  rfl

end Ops

/-! ## Advances of a token -/

/-- What an advance to the block made of a token, if it did anything. -/
def AdvancedTo {chain : LogChain} {scored : ScoredToken}
    (history : Erc20History chain scored.token) (tracked : Option AccountSet) (targetBlock : Nat)
    (state next : TokenState) : Prop :=
  next.cursorBlock = targetBlock ∧ next.decimals = state.decimals ∧
    (next = state ∨ state.cursorBlock < targetBlock ∧ next.rates = scored.rates ∧
      applyTransfers state.decimals scored.rates tracked state.accounts
        (transfersBetween history (state.cursorBlock + 1) targetBlock) = .ok next.accounts)

section Advances

variable {σ : Type} {client : RpcClient σ} {abi : AbiLibrary} {chain : LogChain}
  {scored : ScoredToken} {history : Erc20History chain scored.token} {resultCap : Nat}
  {tracked : Option AccountSet} {targetBlock maxRange decimals : Nat}

/-- Up to the last number of a word the loop does not return. -/
theorem ends_replaySlices_full (fuel : Nat) {sliceFrom : Nat} (inside : sliceFrom ≤ maxU64)
    (replay : Replay) : Ends (fun _ => False) (fun _ => True)
      (replaySlices client abi scored tracked decimals maxU64 maxRange resultCap fuel sliceFrom
        replay) := by
  induction fuel generalizing sliceFrom replay with
  | zero => exact ends_throw trivial
  | succ fuel ih =>
      rw [replaySlices, if_pos inside]
      exact ends_true.bind fun middle _ => ih (Nat.min_le_right ..) middle

theorem ends_replaySlice (history : Erc20History chain scored.token) (standard : abi.Standard)
    (ordered : chain.Ordered) (answers : ∀ filter, AnswersCanonically client chain filter resultCap)
    {lower toBlock : Nat} (inWord : toBlock ≤ maxU64) (forward : lower < toBlock)
    (replay : Replay) :
    Ends (fun last => applyTransfers decimals scored.rates tracked replay.accounts
        (transfersBetween history (lower + 1) toBlock) = .ok last.accounts) (fun _ => True)
      (replaySlice client abi scored tracked decimals maxRange resultCap replay
        (lower + 1, toBlock)) := by
  have read : Ends (fun result => ∀ accounts,
      applyTransfers decimals scored.rates tracked accounts result.1 =
        applyTransfers decimals scored.rates tracked accounts
          (transfersBetween history (lower + 1) toBlock)) (fun _ => True)
      (mapFailure CheckpointError.history (sliceTransfers client abi scored.token tracked
        (lower + 1) toBlock maxRange resultCap)) :=
    (yields_sliceTransfers history standard ordered answers maxRange inWord forward).mapFailure
      fun _ _ => trivial
  refine read.bind fun result sameEffect => ?_
  have applied : Ends (fun accounts => applyTransfers decimals scored.rates tracked replay.accounts
      result.1 = .ok accounts) (fun _ => True) (liftResult (applyTransfers decimals scored.rates
        tracked replay.accounts result.1) : Asking σ CheckpointError Accounts) :=
    ends_liftResult (fun _ run => run) fun _ _ => trivial
  exact applied.bind fun accounts run => ends_pure ((sameEffect _).symm.trans run)

/-- A loop that returns has applied the transfers that were left. -/
theorem ends_replaySlices_applied (history : Erc20History chain scored.token)
    (standard : abi.Standard) (ordered : chain.Ordered)
    (answers : ∀ filter, AnswersCanonically client chain filter resultCap) (positive : 1 ≤ maxRange)
    (below : targetBlock < maxU64) (fuel : Nat) {lower : Nat} (within : lower ≤ targetBlock)
    (replay : Replay) :
    Ends (fun last => applyTransfers decimals scored.rates tracked replay.accounts
        (transfersBetween history (lower + 1) targetBlock) = .ok last.accounts) (fun _ => True)
      (replaySlices client abi scored tracked decimals targetBlock maxRange resultCap fuel
        (lower + 1) replay) := by
  induction fuel generalizing lower replay with
  | zero => exact ends_throw trivial
  | succ fuel ih =>
      rw [replaySlices]
      refine ends_ite (fun inside => ?_) fun beyond => ends_pure ?_
      · have bounds := sliceEnd_bounds inside positive below.le
        have next := saturatingAdd_one (bounds.2.1.trans_lt below)
        dsimp only
        rw [next]
        refine (ends_replaySlice history standard ordered answers (bounds.2.1.trans below.le)
          bounds.1 replay).bind fun middle applied => ?_
        refine (ih bounds.2.1 middle).mono (fun last rest => ?_) fun _ => id
        rw [transfersBetween_split (by omega) bounds.2.1, applyTransfers, List.foldlM_append]
        exact (bind_after applied _).trans rest
      · have done : lower = targetBlock := by omega
        subst done
        have nothing : transfersBetween history (lower + 1) lower = [] := by
          rw [transfersBetween, Nat.sub_self]
          rfl
        rw [nothing]
        rfl

theorem ends_advanceToken_applied (history : Erc20History chain scored.token)
    (standard : abi.Standard) (ordered : chain.Ordered)
    (answers : ∀ filter, AnswersCanonically client chain filter resultCap)
    (inWord : targetBlock ≤ maxU64) (fuel : Nat) (state : TokenState) :
    Ends (fun result => AdvancedTo history tracked targetBlock state result.2.2) (fun _ => True)
      (advanceToken client abi scored tracked fuel state targetBlock maxRange resultCap) := by
  have checked {condition : Prop} [Decidable condition] {message : String} :
      Ends (fun _ => ¬ condition) (fun _ => True)
        (liftResult (revertIf condition (.invalid message)) : Asking σ CheckpointError Unit) :=
    ends_liftResult (fun _ run => (revertIf_ok_iff _ _ _).mp run) fun _ _ => trivial
  refine checked.bind fun _ notAhead => ?_
  refine ends_ite (fun reached => ends_pure ⟨reached.symm, rfl, .inl rfl⟩) fun ahead => ?_
  refine checked.bind fun _ some => ?_
  have behind : state.cursorBlock < targetBlock := by omega
  have replayed : Ends (fun replay => applyTransfers state.decimals scored.rates tracked
      state.accounts (transfersBetween history (state.cursorBlock + 1) targetBlock) =
        .ok replay.accounts) (fun _ => True)
      (replaySlices client abi scored tracked state.decimals targetBlock maxRange resultCap fuel
        (state.cursorBlock + 1) ⟨state.accounts, 0, .default⟩) := by
    rcases inWord.lt_or_eq with below | last
    · exact ends_replaySlices_applied history standard ordered answers (by omega) below fuel
        behind.le _
    · rw [last] at behind ⊢
      exact (ends_replaySlices_full fuel behind _).mono (fun _ => False.elim) fun _ => id
  refine replayed.bind fun replay applied => ?_
  exact ends_true.bind fun anchor _ => ends_pure ⟨rfl, rfl, .inr ⟨behind, rfl, applied⟩⟩

end Advances

/-! ## Accounts that follow a history -/

/-- The entry of the account is that of a run over its operations from `start` on, where it had
`base`, with rates that were known when the run came to them. -/
structure Follows {chain : LogChain} {token : Address} (history : Erc20History chain token)
    (account : Address) (base start : Nat) (state : TokenState) : Prop where
  begun : start ≤ state.cursorBlock
  ran : ∃ updates : List ScoreUpdate, updates.map ScoreUpdate.op =
      windowOps history.ledger chain (logOps history account) (start + 1) state.cursorBlock ∧
    updates.foldlM (ScoreUpdate.apply state.decimals) (.fresh base start) =
      .ok (entryOf state.accounts account) ∧
    ∀ update ∈ updates, KnownAt state.rates update.op.block update.rates

section Following

variable {chain : LogChain} {scored : ScoredToken} {history : Erc20History chain scored.token}
  {account : Address} {base start targetBlock : Nat} {state next : TokenState}
  {tracked : Option AccountSet} {rates : List RatePoint}

/-- No transfer has been replayed at the start. -/
theorem follows_start (isStart : state.cursorBlock = start)
    (isEntry : entryOf state.accounts account = .fresh base start) :
    Follows history account base start state where
  begun := isStart.ge
  ran := by
    have nothing : windowOps history.ledger chain (logOps history account) (start + 1)
        state.cursorBlock = [] := by
      rw [isStart, windowOps, Nat.sub_self]
      rfl
    exact ⟨[], nothing.symm, by rw [isEntry]; rfl, by simp⟩

/-- The operations of the replay so far are at most at its cursor. -/
theorem update_inside (kept : account ≠ .zero) {updates : List ScoreUpdate} {toBlock : Nat}
    (isOps : updates.map ScoreUpdate.op =
      windowOps history.ledger chain (logOps history account) (start + 1) toBlock)
    {update : ScoreUpdate} (member : update ∈ updates) : update.op.block ≤ toBlock := by
  have isOp : update.op ∈ updates.map ScoreUpdate.op := List.mem_map_of_mem member
  rw [isOps] at isOp
  exact (mem_windowOps (logOps_mirrors history kept) isOp).2

theorem Follows.advance (follows : Follows history account base start state)
    (kept : account ≠ .zero) (isTracked : IsTracked tracked account)
    (known : KnownAt scored.rates state.cursorBlock state.rates)
    (advanced : AdvancedTo history tracked targetBlock state next) :
    Follows history account base start next := by
  obtain ⟨cursor, decimals, same | ⟨behind, isRates, applied⟩⟩ := advanced
  · rw [same]
    exact follows
  · obtain ⟨begun, updates, isOps, ran, knownThen⟩ := follows
    constructor
    · omega
    · have later := applyTransfers_entry kept isTracked _ applied
      rw [transfersBetween_ops] at later
      refine ⟨updates ++ (windowOps history.ledger chain (logOps history account)
        (state.cursorBlock + 1) targetBlock).map (ScoreUpdate.mk scored.rates), ?_, ?_, ?_⟩
      · have opsOf (ops : List ScoreOp) :
            (ops.map (ScoreUpdate.mk scored.rates)).map ScoreUpdate.op = ops := by
          rw [List.map_map]
          exact List.map_id ops
        rw [List.map_append, isOps, opsOf, cursor, ← windowOps_split (by omega) behind.le]
      · rw [decimals, List.foldlM_append]
        exact (bind_ok_iff _ _ _).mpr ⟨_, ran, later⟩
      · rw [isRates]
        intro update member
        rcases List.mem_append.mp member with earlier | added
        · exact known.trans (knownThen update earlier) (update_inside kept isOps earlier)
        · obtain ⟨op, -, rfl⟩ := List.mem_map.mp added
          exact KnownAt.refl _ _

/-- What the entry projects at the cursor. -/
theorem Follows.projects (follows : Follows history account base start state)
    (kept : account ≠ .zero) (ascending : Ascending rates)
    (known : KnownAt rates state.cursorBlock state.rates) :
    projectedNumerator (entryOf state.accounts account) state.cursorBlock rates state.decimals =
      .ok (expectedNumerator (heldDuring base start (windowOps history.ledger chain
        (logOps history account) (start + 1) state.cursorBlock)) state.decimals rates
          state.cursorBlock) := by
  obtain ⟨begun, updates, isOps, ran, knownThen⟩ := follows
  have inside : ∀ update ∈ updates, update.op.block ≤ state.cursorBlock :=
    fun update member => update_inside kept isOps member
  have lastBlock := updates_lastBlock ran begun inside
  have law := (score_split_law ascending
    (fun update member => known.trans (knownThen update member) (inside update member)) ran).1
  rw [← isOps]
  exact law state.cursorBlock rates lastBlock (KnownAt.refl _ _)

theorem Follows.balance (follows : Follows history account base start state)
    (kept : account ≠ .zero) : (entryOf state.accounts account).balance =
      balanceAt base (windowOps history.ledger chain (logOps history account) (start + 1)
        state.cursorBlock) state.cursorBlock := by
  obtain ⟨begun, updates, isOps, ran, knownThen⟩ := follows
  rw [updates_last ran, isOps, balanceAt_all fun op member =>
    (mem_windowOps (logOps_mirrors history kept) member).2]
  rfl

/-- A replay from nothing that ends with the balance of the book has gone along with the book. -/
theorem Follows.balanceAt_eq (follows : Follows history account 0 0 state) (kept : account ≠ .zero)
    (valid : history.ledger.Valid chain) (actual : (entryOf state.accounts account).balance =
      history.ledger.bookAt chain state.cursorBlock account) {block : Nat}
    (inside : block ≤ state.cursorBlock) :
    balanceAt 0 (windowOps history.ledger chain (logOps history account) (0 + 1)
      state.cursorBlock) block = history.ledger.bookAt chain block account := by
  have last := follows.balance kept
  obtain ⟨-, updates, isOps, ran, -⟩ := follows
  have frame := updates_frame ran
  rw [isOps] at frame
  have along {place : Nat} (within : place ≤ state.cursorBlock) :
      history.ledger.bookAt chain 0 account + balanceAt 0 (windowOps history.ledger chain
        (logOps history account) (0 + 1) state.cursorBlock) place =
          history.ledger.bookAt chain place account := by
    refine (balanceAt_shift _ frame.1 frame.2).symm.trans ?_
    exact (logOps_mirrors history kept).balanceAt_eq valid (Nat.zero_le _) within
  have atEnd := along (Nat.le_refl _)
  have here := along inside
  omega

/-- A replay from a balance of the book goes along with the book. -/
theorem heldDuring_eq (kept : account ≠ .zero) (valid : history.ledger.Valid chain)
    {block toBlock : Nat} (reached : start ≤ block) (inside : block ≤ toBlock) :
    heldDuring (history.ledger.bookAt chain start account) start (windowOps history.ledger chain
      (logOps history account) (start + 1) toBlock) block =
        history.ledger.bookAt chain block account := by
  rw [heldDuring, if_neg (Nat.not_lt.mpr reached)]
  exact (logOps_mirrors history kept).balanceAt_eq valid reached inside

end Following

end Usd8Core.Checkpoint
