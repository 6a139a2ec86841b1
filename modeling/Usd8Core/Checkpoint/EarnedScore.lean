import Usd8Core.Checkpoint.TokenReplay
import Usd8Core.Engine.BookBalances

/-!
# Scores from archive reads

`earned_score_of` integrates each rate segment by itself, from the balance that an archive node
has at its first block and the transfer logs within it.
-/

set_option autoImplicit false

namespace Usd8Core.Checkpoint

open Usd8Core.Engine
open Usd8Core.Lib.BalanceHistory
open Usd8Core.Lib.ByteWords
open Usd8Core.Lib.CheckedCall
open Usd8Core.Lib.Json
open Usd8Core.Lib.KeyedTally
open Usd8Core.Lib.OracleCall
open Usd8Core.Score (AccountScoreState RatePoint ScoreOp Timely balanceAt balanceAt_before
  balanceAt_cons expectedNumerator grossScore overlapTo
  overlapTo_le scaledIntegral scoreScale segmentIntegral
  segmentNumerator segments sum_held)

/-! ## One segment -/

def sentFilter (token account : Address) : LogFilter :=
  ⟨addressHex token, [.string (topicHash transferSignature), .string (addressTopic account)]⟩

def receivedFilter (token account : Address) : LogFilter :=
  ⟨addressHex token, [.string (topicHash transferSignature), .null,
    .string (addressTopic account)]⟩

/-- What the loop over the deltas of a segment changes. -/
structure BlockIntegral where
  accumulator : Nat
  balance : Nat
  cursor : Nat

def addTransferLog (abi : AbiLibrary) (inflow : Bool) (deltas : Deltas) (log : RpcLog) :
    Except HistoryError Deltas := do
  let event ← decodeEvent abi.transfer transferSignature log
  pure (addDelta deltas log.position event.value inflow)

/-- The balance after a delta. -/
def creditDelta (token : Address) (balance : Nat) (entry : (Nat × Nat) × NetDelta) :
    Except HistoryError Nat :=
  if entry.2.inflow ≥ entry.2.outflow then pure (balance + (entry.2.inflow - entry.2.outflow))
  else do
    let decrease := entry.2.outflow - entry.2.inflow
    revertIf (decrease > balance) (.replayUnderflow token entry.1.1 entry.1.2)
    pure (balance - decrease)

def integrateDelta (token : Address) (state : BlockIntegral)
    (entry : (Nat × Nat) × NetDelta) : Except HistoryError BlockIntegral := do
  let accumulator := state.accumulator + state.balance * (entry.1.1 - state.cursor)
  let balance ← creditDelta token state.balance entry
  pure ⟨accumulator, balance, entry.1.1⟩

section Earned

variable {σ : Type} (client : RpcClient σ) (abi : AbiLibrary)

def tokenBlockIntegral (token account : Address) (fromBlock toBlock maxRange resultCap : Nat) :
    Reading σ (Nat × LogMetrics) :=
  if toBlock ≤ fromBlock then pure (0, .default)
  else do
    let balance ← balanceOfAt client abi token account fromBlock
    let (outgoing, outgoingMetrics) ←
      scanLogs client (sentFilter token account) (fromBlock + 1) toBlock maxRange resultCap
    let (incoming, incomingMetrics) ←
      scanLogs client (receivedFilter token account) (fromBlock + 1) toBlock maxRange resultCap
    let deltas ← liftResult (outgoing.foldlM (addTransferLog abi false) ∅)
    let deltas ← liftResult (incoming.foldlM (addTransferLog abi true) deltas)
    let last ← liftResult (deltas.toList.foldlM (integrateDelta token) ⟨0, balance, fromBlock⟩)
    let actual ← balanceOfAt client abi token account toBlock
    liftResult (revertIf (actual ≠ last.balance)
      (.balanceReplayMismatch token last.balance actual toBlock))
    pure (last.accumulator + last.balance * (toBlock - last.cursor),
      mergeLogMetrics outgoingMetrics incomingMetrics)

/-! ## All segments -/

variable (account : Address) (asOfBlock maxRange resultCap : Nat)

/-- One iteration of the loop over the rates of a token. -/
def earnSegment (scored : ScoredToken) (earned : Nat × LogMetrics)
    (segment : RatePoint × Option Nat) : Reading σ (Nat × LogMetrics) :=
  let toBlock := min (segment.2.getD asOfBlock) asOfBlock
  if segment.1.rate = 0 ∨ segment.1.fromBlock ≥ toBlock then pure earned
  else do
    let (integral, metrics) ← tokenBlockIntegral client abi scored.token account
      segment.1.fromBlock toBlock maxRange resultCap
    let normalized := if scored.decimals ≤ 18 then integral * 10 ^ (18 - scored.decimals)
      else integral / 10 ^ (scored.decimals - 18)
    pure (earned.1 + normalized * segment.1.rate, mergeLogMetrics earned.2 metrics)

def earnedScoreOf (scoredTokens : List ScoredToken) : Reading σ (Nat × LogMetrics) := do
  let (numerator, metrics) ← scoredTokens.foldlM (fun earned scored =>
    (segments scored.rates).foldlM
      (earnSegment client abi account asOfBlock maxRange resultCap scored) earned) (0, .default)
  pure (numerator / scoreScale, metrics)

end Earned

/-! ## The integral over a segment -/

/-- What a delta does to the account. -/
def deltaOp (entry : (Nat × Nat) × NetDelta) : ScoreOp :=
  .transfer entry.1.1 entry.2.inflow entry.2.outflow

theorem creditDelta_ok {token : Address} {balance next : Nat} {entry : (Nat × Nat) × NetDelta}
    (run : creditDelta token balance entry = .ok next) : next = (deltaOp entry).credit balance := by
  simp only [deltaOp, ScoreOp.credit]
  rcases (ite_ok_iff _ _ _ _).mp run with ⟨rises, run⟩ | ⟨falls, run⟩
  · have isNext := (pure_ok_iff _ _).mp run
    omega
  · obtain ⟨_, -, run⟩ := (bind_ok_iff _ _ _).mp run
    have isNext := (pure_ok_iff _ _).mp run
    omega

/-- The loop sums up the balances over the blocks that it passes. -/
theorem integrateDeltas_ok {token : Address} {toBlock : Nat}
    (entries : List ((Nat × Nat) × NetDelta)) (state last : BlockIntegral)
    (timely : Timely state.cursor (entries.map deltaOp)) (begun : state.cursor ≤ toBlock)
    (inside : ∀ op ∈ entries.map deltaOp, op.block ≤ toBlock)
    (run : entries.foldlM (integrateDelta token) state = .ok last) :
    last.accumulator + last.balance * (toBlock - last.cursor) = state.accumulator +
      ∑ block ∈ Finset.Ico state.cursor toBlock,
        balanceAt state.balance (entries.map deltaOp) block := by
  induction entries generalizing state with
  | nil =>
      have constant : ∀ block, state.cursor ≤ block → block < toBlock →
          balanceAt state.balance [] block = state.balance := fun _ _ _ => rfl
      rw [← (pure_ok_iff _ _).mp run, List.map_nil,
        sum_held (Nat.le_refl _) (Nat.le_refl _) constant]
  | cons entry rest ih =>
      obtain ⟨forward, later⟩ := timely
      rw [List.foldlM_cons] at run
      obtain ⟨middle, first, run⟩ := (bind_ok_iff _ _ _).mp run
      obtain ⟨balance, credited, result⟩ := (bind_ok_iff _ _ _).mp first
      cases (pure_ok_iff _ _).mp result
      have within : (deltaOp entry).block ≤ toBlock := inside _ List.mem_cons_self
      have rests := ih _ later within (fun op member => inside op (List.mem_cons_of_mem _ member))
        run
      have fromHere : Timely (deltaOp entry).block ((entry :: rest).map deltaOp) :=
        ⟨Nat.le_refl _, later⟩
      have constant : ∀ block, state.cursor ≤ block → block < (deltaOp entry).block →
          balanceAt state.balance ((entry :: rest).map deltaOp) block = state.balance :=
        fun block _ early => balanceAt_before fromHere early
      have after : ∀ block ∈ Finset.Ico (deltaOp entry).block toBlock,
          balanceAt state.balance ((entry :: rest).map deltaOp) block =
            balanceAt balance (rest.map deltaOp) block := by
        intro block member
        rw [List.map_cons, balanceAt_cons (Finset.mem_Ico.mp member).1, creditDelta_ok credited]
      rw [rests, ← Finset.sum_Ico_consecutive _ forward within,
        sum_held (Nat.le_refl _) (Nat.le_refl _) constant, Finset.sum_congr rfl after, ← Nat.add_assoc]
      rfl

section Integrals

variable {σ : Type} {client : RpcClient σ} {abi : AbiLibrary} {chain : LogChain}
  {token account : Address} {history : Erc20History chain token} {resultCap : Nat}
  {fromBlock toBlock maxRange : Nat}

theorem wanted_sent (history : Erc20History chain token) (log : RpcLog) :
    Wanted chain (sentFilter token account) log ↔ chain.Has log ∧
      history.ledger.emits log = true ∧ (history.transfer log).sender = account := by
  refine and_congr_right fun has => (selects_signed ..).trans (and_congr_right fun emitted => ?_)
  rw [history.topics has emitted]
  simp [TopicsAllow, topicAllows_addressTopic]

theorem wanted_received (history : Erc20History chain token) (log : RpcLog) :
    Wanted chain (receivedFilter token account) log ↔ chain.Has log ∧
      history.ledger.emits log = true ∧ (history.transfer log).recipient = account := by
  refine and_congr_right fun has => (selects_signed ..).trans (and_congr_right fun emitted => ?_)
  rw [history.topics has emitted]
  have anySender (topic : String) : TopicAllows .null topic ↔ True := Iff.rfl
  simp [TopicsAllow, topicAllows_addressTopic, anySender]

/-- What a scan for one side enters for a log. -/
def sideDeltas (inflow : Bool) (event : TransferEvent) : List NetDelta :=
  [if inflow then ⟨event.value, 0⟩ else ⟨0, event.value⟩]

/-- The logs of one scan are entered one by one. -/
theorem addTransferLogs_ok (standard : abi.Standard) (history : Erc20History chain token)
    {inflow : Bool} {next : Deltas} (logs : List RpcLog)
    (emitted : ∀ log ∈ logs, chain.Has log ∧ history.ledger.emits log = true) (deltas : Deltas)
    (run : logs.foldlM (addTransferLog abi inflow) deltas = .ok next) :
    next = enterAll deltas (entriesOf RpcLog.position logs fun log =>
      sideDeltas inflow (history.transfer log)) := by
  induction logs generalizing deltas with
  | nil => exact ((pure_ok_iff _ _).mp run).symm
  | cons log rest ih =>
      rw [List.foldlM_cons] at run
      obtain ⟨middle, first, run⟩ := (bind_ok_iff _ _ _).mp run
      obtain ⟨has, isTransfer⟩ := emitted log List.mem_cons_self
      have decoded := standard.transfer _ log (history.logged log has isTransfer)
      simp only [addTransferLog, decodeEvent, decoded] at first
      cases (pure_ok_iff _ _).mp first
      exact ih (fun other member => emitted other (List.mem_cons_of_mem _ member)) _ run

/-- The transfer logs of the token after one block and up to another. -/
def transferWindow {chain : LogChain} {token : Address} (history : Erc20History chain token)
    (fromBlock toBlock : Nat) : List RpcLog :=
  chain.between history.ledger.emits (fromBlock + 1) (toBlock - fromBlock)

theorem yields_sideScan (ordered : chain.Ordered) {filter : LogFilter}
    (taken : TransferEvent → Bool) (wanted : ∀ log, Wanted chain filter log ↔ chain.Has log ∧
      history.ledger.emits log = true ∧ taken (history.transfer log) = true)
    (answers : AnswersCanonically client chain filter resultCap) (inWord : toBlock ≤ maxU64) :
    Yields (fun result => result.1 = (transferWindow history fromBlock toBlock).filter
        fun log => taken (history.transfer log))
      (scanLogs client filter (fromBlock + 1) toBlock maxRange resultCap) := by
  refine (yields_scanLogs _ _ _ _ inWord answers).mono (fun scanned isScanned => ?_) fun _ => id
  refine ordered_ext isScanned.2 ((LogChain.between_pairwise ordered _ _).filter _) fun log => ?_
  rw [isScanned.1 log, wanted log, List.mem_filter, transferWindow, LogChain.mem_between]
  constructor
  · rintro ⟨⟨has, emitted, isTaken⟩, above, below⟩
    exact ⟨⟨has, emitted, above, by omega⟩, isTaken⟩
  · rintro ⟨⟨has, emitted, above, below⟩, isTaken⟩
    exact ⟨⟨has, emitted, isTaken⟩, above, by omega⟩

/-- What the two scans enter for a log. -/
def sidePasses (account : Address) : List (TransferEvent → List NetDelta) :=
  [fun event => if decide (event.sender = account) then sideDeltas false event else [],
    fun event => if decide (event.recipient = account) then sideDeltas true event else []]

theorem sidePasses_sum (history : Erc20History chain token) (log : RpcLog) :
    ((sidePasses account).flatMap fun pass => pass (history.transfer log)).sum =
      ⟨inflow account (history.ledger.moves log), outflow account (history.ledger.moves log)⟩ := by
  by_cases isSender : (history.transfer log).sender = account <;>
    by_cases isRecipient : (history.transfer log).recipient = account <;>
      simp [sidePasses, sideDeltas, Erc20History.ledger, inflow, outflow, isSender, isRecipient]

theorem sidePasses_any (event : TransferEvent) :
    ((sidePasses account).any fun pass => pass event ≠ []) = decide (event.Touches account) := by
  by_cases isSender : event.sender = account <;>
    by_cases isRecipient : event.recipient = account <;>
      simp [sidePasses, sideDeltas, TransferEvent.Touches, isSender, isRecipient]

/-- Each log of the window that touches the account is listed with what it moves. -/
theorem sides_toList (history : Erc20History chain token) (ordered : chain.Ordered) :
    (enterAll (enterAll (∅ : Deltas) (entriesOf RpcLog.position
        ((transferWindow history fromBlock toBlock).filter fun log =>
          decide ((history.transfer log).sender = account))
        fun log => sideDeltas false (history.transfer log)))
      (entriesOf RpcLog.position ((transferWindow history fromBlock toBlock).filter fun log =>
          decide ((history.transfer log).recipient = account))
        fun log => sideDeltas true (history.transfer log))).toList =
      ((transferWindow history fromBlock toBlock).filter fun log =>
        (history.transfer log).Touches account).map fun log => (log.position,
          ⟨inflow account (history.ledger.moves log),
            outflow account (history.ledger.moves log)⟩) := by
  have listed := enterAll_passes_toList (transferWindow history fromBlock toBlock)
    ((sidePasses account).map fun pass log => pass (history.transfer log))
    ((LogChain.between_pairwise ordered _ _).imp before_iff.mp)
  simp only [List.flatMap_map, sidePasses_sum] at listed
  have counted : (fun log => ((sidePasses account).map fun pass log =>
      pass (history.transfer log)).any fun pass => decide (pass log ≠ [])) =
        fun log => decide ((history.transfer log).Touches account) := by
    funext log
    rw [← sidePasses_any, List.any_map]
    rfl
  rw [counted] at listed
  rw [entriesOf_filter, entriesOf_filter, ← listed]
  congr 1
  exact List.foldl_append.symm.trans (by simp [sidePasses, enterAll])

/-- Over a segment the loop sums up what the account held at the end of each block. -/
theorem yields_tokenBlockIntegral (standard : abi.Standard) (ordered : chain.Ordered)
    (valid : history.ledger.Valid chain) (balances : AnswersErc20 client history)
    (answers : ∀ filter, AnswersCanonically client chain filter resultCap)
    (kept : account ≠ .zero) (inWord : toBlock ≤ maxU64) (window : fromBlock < toBlock) :
    Yields (fun result => result.1 =
        ∑ block ∈ Finset.Ico fromBlock toBlock, history.ledger.bookAt chain block account)
      (tokenBlockIntegral client abi token account fromBlock toBlock maxRange resultCap) := by
  refine ends_ite (fun none => absurd none (by omega)) fun _ => ?_
  refine (yields_balanceOfAt standard valid balances).bind fun balance isBalance => ?_
  refine (yields_sideScan ordered (fun event => decide (event.sender = account))
    (fun log => by rw [wanted_sent history, decide_eq_true_eq]) (answers _) inWord).bind
      fun outgoing isOutgoing => ?_
  obtain ⟨sent, outgoingMetrics⟩ := outgoing
  refine (yields_sideScan ordered (fun event => decide (event.recipient = account))
    (fun log => by rw [wanted_received history, decide_eq_true_eq]) (answers _) inWord).bind
      fun incoming isIncoming => ?_
  obtain ⟨received, incomingMetrics⟩ := incoming
  dsimp only at isOutgoing isIncoming ⊢
  refine (yields_result _).bind fun first enteredSent => ?_
  refine (yields_result _).bind fun deltas enteredReceived => ?_
  refine (yields_result _).bind fun last integrated => ?_
  refine ends_true.bind fun actual _ => ends_true.bind fun _ _ => ends_pure ?_
  have emitted (taken : RpcLog → Bool) : ∀ log ∈ (transferWindow history fromBlock toBlock).filter
      taken, chain.Has log ∧ history.ledger.emits log = true := fun log member =>
    let inside := LogChain.mem_between.mp (List.mem_of_mem_filter member)
    ⟨inside.1, inside.2.1⟩
  have firstIs := addTransferLogs_ok standard history sent (isOutgoing ▸ emitted _) _ enteredSent
  have deltasIs := addTransferLogs_ok standard history received (isIncoming ▸ emitted _) _
    enteredReceived
  rw [deltasIs, firstIs, isOutgoing, isIncoming, sides_toList history ordered] at integrated
  have mirrors : Mirrors history.ledger account (netOps history.ledger account fun log =>
      decide ((history.transfer log).Touches account)) := by
    refine netOps_mirrors kept _ fun log untouched => ?_
    have neither := not_or.mp (of_decide_eq_false untouched)
    simp [Erc20History.ledger, inflow, outflow, neither.1, neither.2]
  have ops : (((transferWindow history fromBlock toBlock).filter fun log =>
      (history.transfer log).Touches account).map fun log => (log.position,
        (⟨inflow account (history.ledger.moves log),
          outflow account (history.ledger.moves log)⟩ : NetDelta))).map deltaOp =
      windowOps history.ledger chain (netOps history.ledger account fun log =>
        decide ((history.transfer log).Touches account)) (fromBlock + 1) toBlock := by
    rw [windowOps, Nat.add_sub_add_right, transferWindow]
    generalize chain.between history.ledger.emits (fromBlock + 1) (toBlock - fromBlock) = logs
    induction logs with
    | nil => rfl
    | cons log rest ih =>
        by_cases touched : (history.transfer log).Touches account <;>
          simp_all [netOps, deltaOp, RpcLog.position]
  have summed := integrateDeltas_ok _ _ _ (by rw [ops]; exact windowOps_timely mirrors ordered)
    window.le (by rw [ops]; exact fun op member => (mem_windowOps mirrors member).2) integrated
  dsimp only at summed
  rw [ops, isBalance, Nat.zero_add] at summed
  refine summed.trans (Finset.sum_congr rfl fun block member => ?_)
  rw [Finset.mem_Ico] at member
  exact mirrors.balanceAt_eq valid member.1 member.2.le

end Integrals

/-! ## All tokens -/

/-- The sum over the rate segments of what an account held of the token. -/
def bookNumerator {chain : LogChain} (account : Address) (asOfBlock : Nat) (scored : ScoredToken)
    (history : Erc20History chain scored.token) : Nat :=
  expectedNumerator (fun block => history.ledger.bookAt chain block account) scored.decimals
    scored.rates asOfBlock

/-- The tokens that may be scored, with their histories. -/
structure ScoredBook (chain : LogChain) where
  Scored : Address → Prop
  history : ∀ token, Scored token → Erc20History chain token

/-- Balances and library calls are answered as the chain has them. -/
structure ServesBook {σ : Type} (client : RpcClient σ) (abi : AbiLibrary) {chain : LogChain}
    (book : ScoredBook chain) : Prop where
  standard : abi.Standard
  ordered : chain.Ordered
  valid : ∀ token listed, (book.history token listed).ledger.Valid chain
  balances : ∀ token listed, AnswersErc20 client (book.history token listed)

/-- The value that a token of the book has. -/
def ValueOf {chain : LogChain} (book : ScoredBook chain)
    (value : ∀ scored : ScoredToken, Erc20History chain scored.token → Nat) (scored : ScoredToken)
    (result : Nat) : Prop :=
  ∃ listed : book.Scored scored.token, result = value scored (book.history scored.token listed)

/-- The gross score that the books of the tokens give. -/
def ScoreIs {chain : LogChain} (book : ScoredBook chain) (account : Address) (asOfBlock : Nat)
    (scoredTokens : List ScoredToken) (score : Nat) : Prop :=
  ∃ numerators, List.Forall₂ (ValueOf book (bookNumerator account asOfBlock)) scoredTokens
    numerators ∧ score = grossScore numerators.sum

section Scores

variable {σ : Type} {client : RpcClient σ} {abi : AbiLibrary} {chain : LogChain}
  {account : Address} {resultCap asOfBlock maxRange : Nat} {scored : ScoredToken}
  {history : Erc20History chain scored.token}

theorem min_getD_eq_overlapTo (next : Option Nat) (toBlock : Nat) :
    min (next.getD toBlock) toBlock = overlapTo next toBlock := by
  cases next with
  | none => exact Nat.min_self toBlock
  | some next => rfl

theorem yields_earnSegment (standard : abi.Standard) (ordered : chain.Ordered)
    (valid : history.ledger.Valid chain) (balances : AnswersErc20 client history)
    (answers : ∀ filter, AnswersCanonically client chain filter resultCap)
    (kept : account ≠ .zero) (inWord : asOfBlock ≤ maxU64) (earned : Nat × LogMetrics)
    (segment : RatePoint × Option Nat) :
    Yields (fun result => result.1 = earned.1 + segmentNumerator
        (fun block => history.ledger.bookAt chain block account) scored.decimals asOfBlock segment)
      (earnSegment client abi account asOfBlock maxRange resultCap scored earned segment) := by
  have below := overlapTo_le segment.2 asOfBlock
  unfold earnSegment
  dsimp only
  rw [min_getD_eq_overlapTo]
  refine ends_ite (fun idle => ends_pure ?_) fun pays => ?_
  · rcases idle with noRate | empty
    · simp [segmentNumerator, noRate]
    · simp [segmentNumerator, segmentIntegral, Finset.Ico_eq_empty_of_le empty]
  · refine (yields_tokenBlockIntegral standard ordered valid balances answers kept
      (below.trans inWord) (by omega)).bind fun summed isSum => ends_pure ?_
    rw [isSum, segmentNumerator, segmentIntegral, scaledIntegral, Nat.mul_comm segment.1.rate]

theorem yields_earnToken (standard : abi.Standard) (ordered : chain.Ordered)
    (valid : history.ledger.Valid chain) (balances : AnswersErc20 client history)
    (answers : ∀ filter, AnswersCanonically client chain filter resultCap)
    (kept : account ≠ .zero) (inWord : asOfBlock ≤ maxU64) (earned : Nat × LogMetrics) :
    Yields (fun result => result.1 = earned.1 + bookNumerator account asOfBlock scored history)
      ((segments scored.rates).foldlM
        (earnSegment client abi account asOfBlock maxRange resultCap scored) earned) := by
  unfold bookNumerator expectedNumerator
  generalize segments scored.rates = visited
  induction visited generalizing earned with
  | nil => exact ends_pure rfl
  | cons segment rest ih =>
      rw [List.foldlM_cons]
      refine (yields_earnSegment standard ordered valid balances answers kept inWord earned
        segment).bind fun middle isMiddle => ?_
      refine (ih middle).mono (fun result isResult => ?_) fun _ => id
      rw [isResult, isMiddle, List.map_cons, List.sum_cons, Nat.add_assoc]

variable {book : ScoredBook chain} {scoredTokens : List ScoredToken}

theorem valueOf_unique (value : ∀ scored : ScoredToken, Erc20History chain scored.token → Nat)
    {results others : List Nat} (first : List.Forall₂ (ValueOf book value) scoredTokens results)
    (second : List.Forall₂ (ValueOf book value) scoredTokens others) : results = others := by
  refine List.right_unique_forall₂' (fun scored result other isResult isOther => ?_) first second
  obtain ⟨_, rfl⟩ := isResult
  obtain ⟨_, rfl⟩ := isOther
  rfl

theorem ScoreIs.unique {score other : Nat} (first : ScoreIs book account asOfBlock scoredTokens score)
    (second : ScoreIs book account asOfBlock scoredTokens other) : score = other := by
  obtain ⟨numerators, values, rfl⟩ := first
  obtain ⟨others, otherValues, rfl⟩ := second
  rw [valueOf_unique _ values otherValues]

theorem yields_earnedScoreOf (serves : ServesBook client abi book)
    (answers : ∀ filter, AnswersCanonically client chain filter resultCap)
    (kept : account ≠ .zero) (inWord : asOfBlock ≤ maxU64)
    (listed : ∀ scored ∈ scoredTokens, book.Scored scored.token) :
    Yields (fun result => ScoreIs book account asOfBlock scoredTokens result.1)
      (earnedScoreOf client abi account asOfBlock maxRange resultCap scoredTokens) := by
  have summed (earned : Nat × LogMetrics) : Yields (fun result => ∃ numerators,
      List.Forall₂ (ValueOf book (bookNumerator account asOfBlock)) scoredTokens numerators ∧
        result.1 = earned.1 + numerators.sum)
      (scoredTokens.foldlM (fun earned scored => (segments scored.rates).foldlM
        (earnSegment client abi account asOfBlock maxRange resultCap scored) earned) earned) := by
    induction scoredTokens generalizing earned with
    | nil => exact ends_pure ⟨[], .nil, rfl⟩
    | cons scored rest ih =>
        rw [List.foldlM_cons]
        have isListed := listed scored List.mem_cons_self
        refine (yields_earnToken serves.standard serves.ordered (serves.valid _ isListed)
          (serves.balances _ isListed) answers kept inWord earned).bind fun middle isMiddle => ?_
        refine (ih (fun other member => listed other (List.mem_cons_of_mem _ member)) middle).mono
          (fun result isResult => ?_) fun _ => id
        obtain ⟨numerators, values, isSum⟩ := isResult
        exact ⟨_, .cons ⟨isListed, rfl⟩ values, by
          rw [isSum, isMiddle, List.sum_cons, Nat.add_assoc]⟩
  refine (summed _).bind fun result isResult => ends_pure ?_
  obtain ⟨numerators, values, isSum⟩ := isResult
  exact ⟨numerators, values, by rw [isSum, Nat.zero_add]; rfl⟩

end Scores

end Usd8Core.Checkpoint
