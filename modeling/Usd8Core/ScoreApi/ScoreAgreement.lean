import Usd8Core.Checkpoint.EarnedScore
import Usd8Core.ScoreApi.IncrementalScore

/-!
# Incremental and cold scores agree

Each replay of `score_to_block` ends with the expected scores of the tokens, whatever stored
checkpoints it started from, as long as these follow the histories; and the checkpoints that it
leaves follow them too.  So a calculation that goes on from earlier ones has the score of one that
starts from nothing.
-/

set_option autoImplicit false

namespace Usd8Core.ScoreApi

open Usd8Core.Checkpoint (ScoredBook ServesBook ValueOf addressHex_injective
  valueOf_unique)
open Usd8Core.Engine
open Usd8Core.Lib.ByteWords
open Usd8Core.Lib.CheckedCall
open Usd8Core.Lib.DecimalText
open Usd8Core.Lib.OracleCall
open Usd8Core.Score

/-! ## Chunks -/

/-- Working through chunks is working through all items. -/
theorem foldlM_chunks {m : Type → Type} [Monad m] [LawfulMonad m] {α β γ : Type} (step : α → m β)
    (add : γ → β → γ) (groups : List (List α)) (start : γ) :
    groups.foldlM (fun state group => do
        let results ← group.mapM step
        pure (results.foldl add state)) start =
      (do
        let results ← groups.flatten.mapM step
        pure (results.foldl add start)) := by
  induction groups generalizing start with
  | nil => simp
  | cons group rest ih =>
      simp only [List.foldlM_cons, List.flatten_cons, List.mapM_append, bind_assoc, pure_bind]
      refine bind_congr fun results => ?_
      rw [ih]
      simp

/-! ## Histories of the scored tokens -/

/-- What a replay of a token of the book ends with. -/
def TokenScored {chain : LogChain} (book : ScoredBook chain) (account : Address)
    (targetBlock : Nat) (scored : Checkpoint.ScoredToken) (replay : TokenReplay) : Prop :=
  ∃ listed : book.Scored scored.token,
    FollowsTo scored (book.history scored.token listed) account targetBlock replay.checkpoint ∧
    replay.numerator = expectedScore scored (book.history scored.token listed) account targetBlock

/-- Every stored checkpoint of a token of the book follows its history. -/
def BookFollow {chain : LogChain} (book : ScoredBook chain) (account : Address)
    (checkpoints : List TokenCheckpoint) : Prop :=
  ∀ token (listed : book.Scored token), StoredFollow (book.history token listed) account checkpoints

/-- Logs too are answered as the chain has them. -/
structure ServesHistories {σ : Type} (client : RpcClient σ) (abi : AbiLibrary) {chain : LogChain}
    (book : ScoredBook chain) : Prop extends ServesBook client abi book where
  logs : ∀ filter, AnswersCanonically client chain filter LOG_RESULT_CAP

/-- The checkpoints that replays leave. -/
def checkpointsOf (replays : List TokenReplay) : List TokenCheckpoint :=
  replays.flatMap fun replay => replay.checkpoint.toList

section Agreement

variable {σ : Type} {client : RpcClient σ} {abi : AbiLibrary} {chain : LogChain}
  {book : ScoredBook chain} {account : Address} {targetBlock : Nat} {targetBlockHash : String}
  {scoredTokens : List Checkpoint.ScoredToken} {replays : List TokenReplay}
  {previousTokens : List TokenCheckpoint}

theorem computes_scoreToBlock (serves : ServesHistories client abi book)
    (listed : ∀ scored ∈ scoredTokens, book.Scored scored.token)
    (ascending : ∀ scored ∈ scoredTokens, Ascending scored.rates) (inWord : targetBlock ≤ maxU64)
    (follow : BookFollow book account previousTokens) :
    Computes (fun score => ∃ replays,
        List.Forall₂ (TokenScored book account targetBlock) scoredTokens replays ∧
        score.nextTokens = checkpointsOf replays ∧
        score.numerator = (replays.map TokenReplay.numerator).sum)
      (scoreToBlock client abi account scoredTokens previousTokens targetBlock
        targetBlockHash) := by
  have all : (chunks MAX_PARALLEL_TOKEN_REPLAYS scoredTokens.length scoredTokens).flatten =
      scoredTokens := chunks_flatten (by decide) _ _ (Nat.le_refl _)
  have replayed : Computes
      (fun replays => List.Forall₂ (TokenScored book account targetBlock) scoredTokens replays)
      (scoredTokens.mapM
        (replayToken client abi account previousTokens targetBlock targetBlockHash)) := by
    apply ends_mapM
    intro scored member
    have isListed := listed scored member
    refine (computes_replayToken serves.standard serves.ordered serves.logs
      (serves.valid _ isListed) (serves.balances _ isListed) (ascending scored member) inWord
      (follow _ isListed)).mono (fun replay scored => ⟨isListed, scored⟩) fun _ => id
  unfold scoreToBlock
  rw [foldlM_chunks, all]
  refine replayed.bind fun replays each => ends_pure ⟨replays, each, ?_⟩
  have added := foldl_add replays ScoreReplay.empty
  simpa [ScoreReplay.empty, checkpointsOf] using added

/-- Every checkpoint that was left is that of one of the tokens. -/
theorem mem_checkpointsOf (each : List.Forall₂ (TokenScored book account targetBlock) scoredTokens
      replays) {checkpoint : TokenCheckpoint} (member : checkpoint ∈ checkpointsOf replays) :
    ∃ scored ∈ scoredTokens, checkpoint.token = addressHex scored.token ∧
      ∃ (listed : book.Scored scored.token) (start : Nat),
        Tracks (book.history scored.token listed) account start targetBlock checkpoint := by
  obtain ⟨replay, inReplays, isCheckpoint⟩ := List.mem_flatMap.mp member
  obtain ⟨scored, inTokens, listed, follows, -⟩ := exists_left_of_mem each inReplays
  rw [Option.mem_toList] at isCheckpoint
  rw [isCheckpoint] at follows
  obtain ⟨isToken, start, -, tracks⟩ := follows
  exact ⟨scored, inTokens, isToken, listed, start, tracks⟩

theorem bookFollow_of_scored (each : List.Forall₂ (TokenScored book account targetBlock)
      scoredTokens replays) : BookFollow book account (checkpointsOf replays) := by
  intro token listed stored member isToken
  obtain ⟨scored, -, sameToken, isListed, start, tracks⟩ := mem_checkpointsOf each member
  obtain rfl : scored.token = token := addressHex_injective (sameToken.symm.trans isToken)
  exact ⟨start, targetBlock, tracks⟩

theorem bookFollow_nil : BookFollow book account [] := fun _ _ _ member => by cases member

/-- The checkpoint of a token is the one that its own replay left. -/
theorem find_checkpoint (each : List.Forall₂ (TokenScored book account targetBlock) scoredTokens
      replays) (distinct : (scoredTokens.map Checkpoint.ScoredToken.token).Nodup) :
    ∀ scored ∈ scoredTokens, ∃ replay, TokenScored book account targetBlock scored replay ∧
      (checkpointsOf replays).find? (fun checkpoint =>
        checkpoint.token == addressHex scored.token) = replay.checkpoint := by
  induction each with
  | nil => simp
  | @cons first replay rest replays isFirst each ih =>
      rw [List.map_cons, List.nodup_cons] at distinct
      have others : ∀ checkpoint ∈ checkpointsOf replays,
          checkpoint.token ≠ addressHex first.token := by
        intro checkpoint member isToken
        obtain ⟨scored, inRest, sameToken, -⟩ := mem_checkpointsOf each member
        have same := addressHex_injective (sameToken.symm.trans isToken)
        exact distinct.1 (same ▸ List.mem_map_of_mem inRest)
      have noneLater : (checkpointsOf replays).find? (fun checkpoint =>
          checkpoint.token == addressHex first.token) = none := by
        rw [List.find?_eq_none]
        intro checkpoint member
        simpa using others checkpoint member
      have listedFirst : checkpointsOf (replay :: replays) =
          replay.checkpoint.toList ++ checkpointsOf replays := rfl
      intro scored member
      rw [listedFirst, List.find?_append]
      rcases List.mem_cons.mp member with rfl | inRest
      · refine ⟨replay, isFirst, ?_⟩
        obtain ⟨listed, follows, -⟩ := isFirst
        cases isCheckpoint : replay.checkpoint with
        | none => simpa using noneLater
        | some checkpoint =>
            rw [isCheckpoint] at follows
            simp [follows.1]
      · obtain ⟨own, isOwn, found⟩ := ih distinct.2 scored inRest
        refine ⟨own, isOwn, ?_⟩
        have apart : first.token ≠ scored.token := fun same =>
          distinct.1 (same ▸ List.mem_map_of_mem inRest)
        obtain ⟨listed, follows, -⟩ := isFirst
        cases isCheckpoint : replay.checkpoint with
        | none => simpa using found
        | some checkpoint =>
            rw [isCheckpoint] at follows
            have differ : addressHex first.token ≠ addressHex scored.token := fun same =>
              apart (addressHex_injective same)
            simpa [follows.1, differ] using found

/-! ## Values per token -/

/-- The balance at the end of the block, where the token contributes. -/
def expectedBalance {chain : LogChain} (account : Address) (targetBlock : Nat)
    (scored : Checkpoint.ScoredToken) (history : Erc20History chain scored.token) : Nat :=
  match firstContributingBlock scored targetBlock with
  | none => 0
  | some start => holding history account start targetBlock

def expectedRate {chain : LogChain} (account : Address) (targetBlock : Nat) (scored : Checkpoint.ScoredToken)
    (history : Erc20History chain scored.token) : Nat :=
  scaledBalance (expectedBalance account targetBlock scored history) scored.decimals *
    rateAt scored.rates targetBlock / scoreScale / 12

/-- A value that is read of a checkpoint is that of its token, if it is zero for the tokens that
do not contribute. -/
theorem perToken_values {read : TokenCheckpoint → Checkpoint.ScoredToken → Incremental Nat}
    {value : ∀ scored : Checkpoint.ScoredToken, Erc20History chain scored.token → Nat} {results : List Nat}
    (each : List.Forall₂ (TokenScored book account targetBlock) scoredTokens replays)
    (distinct : (scoredTokens.map Checkpoint.ScoredToken.token).Nodup)
    (idle : ∀ scored history, firstContributingBlock scored targetBlock = none →
      value scored history = 0)
    (reads : ∀ scored ∈ scoredTokens, ∀ history start checkpoint result,
      firstContributingBlock scored targetBlock = some start →
      Tracks history account start targetBlock checkpoint →
      read checkpoint scored = .ok result → result = value scored history)
    (run : perToken read (checkpointsOf replays) scoredTokens = .ok results) :
    List.Forall₂ (ValueOf book value) scoredTokens results := by
  have found := find_checkpoint each distinct
  have members : ∀ scored ∈ scoredTokens, scored ∈ scoredTokens := fun _ => id
  refine ((List.forall₂_and_left _ _).mpr ⟨members, (mapM_ok_iff _ _ _).mp run⟩).imp
    fun scored result isRead => ?_
  obtain ⟨member, isRead⟩ := isRead
  obtain ⟨replay, ⟨listed, follows, -⟩, isFound⟩ := found scored member
  rw [isFound] at isRead
  refine ⟨listed, ?_⟩
  cases isCheckpoint : replay.checkpoint with
  | none =>
      rw [isCheckpoint] at isRead follows
      cases (pure_ok_iff _ _).mp isRead
      exact (idle scored _ follows).symm
  | some checkpoint =>
      rw [isCheckpoint] at isRead follows
      obtain ⟨-, start, first, tracks⟩ := follows
      exact reads scored member _ start checkpoint result first tracks isRead

theorem tokenNumerators_values {results : List Nat}
    (each : List.Forall₂ (TokenScored book account targetBlock) scoredTokens replays)
    (distinct : (scoredTokens.map Checkpoint.ScoredToken.token).Nodup)
    (ascending : ∀ scored ∈ scoredTokens, Ascending scored.rates)
    (run : tokenNumerators (checkpointsOf replays) scoredTokens targetBlock = .ok results) :
    List.Forall₂ (ValueOf book fun scored history =>
      expectedScore scored history account targetBlock) scoredTokens results := by
  refine perToken_values each distinct (fun scored history idle => ?_) ?_ run
  · rw [expectedScore, idle]
  · intro scored member history start checkpoint result first tracks isRead
    rw [expectedScore, first]
    exact (tracks.numerator (ascending scored member) first isRead).2

theorem tokenBalances_values {results : List Nat}
    (each : List.Forall₂ (TokenScored book account targetBlock) scoredTokens replays)
    (distinct : (scoredTokens.map Checkpoint.ScoredToken.token).Nodup)
    (run : tokenBalances (checkpointsOf replays) scoredTokens = .ok results) :
    List.Forall₂ (ValueOf book (expectedBalance account targetBlock)) scoredTokens results := by
  refine perToken_values each distinct (fun scored history idle => ?_) ?_ run
  · rw [expectedBalance, idle]
  · intro scored _ history start checkpoint result first tracks isRead
    rw [expectedBalance, first]
    exact tracks.balance isRead

theorem liveScoreRates_values {results : List Nat}
    (each : List.Forall₂ (TokenScored book account targetBlock) scoredTokens replays)
    (distinct : (scoredTokens.map Checkpoint.ScoredToken.token).Nodup)
    (run : liveScoreRates (checkpointsOf replays) scoredTokens targetBlock = .ok results) :
    List.Forall₂ (ValueOf book (expectedRate account targetBlock)) scoredTokens results := by
  refine perToken_values each distinct (fun scored history idle => ?_) ?_ run
  · have noBalance : expectedBalance account targetBlock scored history = 0 := by
      rw [expectedBalance, idle]
    simp [expectedRate, noBalance, scaledBalance]
  · intro scored _ history start checkpoint result first tracks isRead
    obtain ⟨balance, isBalance, isResult⟩ := (bind_ok_iff _ _ _).mp isRead
    cases (pure_ok_iff _ _).mp isResult
    rw [expectedRate, expectedBalance, first, tracks.balance isBalance]

theorem replays_values
    (each : List.Forall₂ (TokenScored book account targetBlock) scoredTokens replays) :
    List.Forall₂ (ValueOf book fun scored history =>
        expectedScore scored history account targetBlock) scoredTokens
      (replays.map TokenReplay.numerator) := by
  rw [List.forall₂_map_right_iff]
  refine each.imp fun scored replay isScored => ?_
  obtain ⟨listed, -, numerator⟩ := isScored
  exact ⟨listed, numerator⟩

end Agreement

/-! ## Token scores -/

theorem sum_grossScore_le (numerators : List Nat) :
    (numerators.map grossScore).sum ≤ grossScore numerators.sum := by
  induction numerators with
  | nil => simp
  | cons numerator rest ih =>
      rw [List.map_cons, List.sum_cons, List.sum_cons]
      exact (Nat.add_le_add_left ih _).trans Nat.div_add_div_le_add_div

theorem addToLast_sum {scores : List Nat} (nonempty : scores ≠ []) (rest : Nat) :
    (addToLast scores rest).sum = scores.sum + rest := by
  rw [addToLast, List.getLast?_eq_getLast_of_ne_nil nonempty, List.sum_append]
  have split := congrArg List.sum (List.dropLast_append_getLast nonempty)
  rw [List.sum_append] at split
  simp only [List.sum_singleton] at split ⊢
  omega

/-- What the tokens get adds up to the score of them all. -/
theorem allocateTokenScores_sum (numerators : List Nat) :
    (allocateTokenScores numerators).sum = grossScore numerators.sum := by
  by_cases empty : numerators = []
  · subst empty
    rfl
  · have nonempty : numerators.map grossScore ≠ [] := by simpa using empty
    rw [allocateTokenScores, addToLast_sum nonempty]
    have floors := sum_grossScore_le numerators
    omega

theorem addToLast_length (scores : List Nat) (rest : Nat) :
    (addToLast scores rest).length = scores.length := by
  cases scores using List.reverseRecOn with
  | nil => rfl
  | append_singleton scores last => simp [addToLast]

theorem tokenScoreSnapshots_scores {tokens : List Checkpoint.ScoredToken} {scores rates balances : List Nat}
    (isScores : scores.length = tokens.length) (isRates : rates.length = tokens.length)
    (isBalances : balances.length = tokens.length) :
    (tokenScoreSnapshots tokens scores rates balances).map TokenScoreSnapshot.grossEarnedScore =
      scores.map decimalText := by
  induction tokens generalizing scores rates balances with
  | nil => simp_all [tokenScoreSnapshots]
  | cons token tokens ih =>
      cases scores with
      | nil => simp at isScores
      | cons score scores =>
          cases rates with
          | nil => simp at isRates
          | cons rate rates =>
              cases balances with
              | nil => simp at isBalances
              | cons balance balances =>
                  have later := ih (Nat.succ.inj isScores) (Nat.succ.inj isRates)
                    (Nat.succ.inj isBalances)
                  simp [tokenScoreSnapshots, later]

/-! ## A chain with one transfer -/

namespace SmallScores

open Usd8Core.Engine.SmallHistory (alice alice_ne_zero encode logAt token beValue_wordBytes
  strip0x_bytesHex)
open Usd8Core.Lib.BalanceHistory
open Usd8Core.Lib.Json

/-- Alice gets eight in block 2. -/
def mint : RpcLog := logAt 0 token transferSignature [.zero, alice] [8]

def chain : LogChain where
  receipts block := if block = 2 then [[mint]] else []
  placed block receipt isReceipt log member := by
    split at isReceipt
    next isTwo =>
      rw [List.mem_singleton.mp isReceipt] at member
      rw [List.mem_singleton.mp member, isTwo]
      rfl
    next => cases isReceipt

theorem has_iff (log : RpcLog) : chain.Has log ↔ log = mint := by
  rw [LogChain.Has, chain]
  dsimp only
  constructor
  · intro has
    split at has
    next => simpa using has
    next => simp at has
  · rintro rfl
    simp [mint, logAt]

theorem ordered : chain.Ordered := by
  intro block
  rw [chain]
  dsimp only
  split
  · exact List.pairwise_singleton _ _
  · exact .nil

theorem between_nil (emits : RpcLog → Bool) {first count : Nat}
    (without : ∀ block, first ≤ block → block < first + count → block ≠ 2) :
    chain.between emits first count = [] := by
  rw [LogChain.between, List.flatMap_eq_nil_iff]
  intro block inside
  rw [List.mem_range'_1] at inside
  simp [chain, without block inside.1 inside.2]

/-- Before the third block there is nothing, then the transfer. -/
theorem between_eq (emits : RpcLog → Bool) (count : Nat) :
    chain.between emits 0 count = if count < 3 then [] else [mint].filter emits := by
  split
  next few => exact between_nil emits (by omega)
  next many =>
    obtain ⟨more, rfl⟩ := Nat.exists_eq_add_of_le (Nat.le_of_not_lt many)
    rw [LogChain.between_append, between_nil emits (by omega : ∀ block, 0 + 3 ≤ block →
      block < 0 + 3 + more → block ≠ 2), List.append_nil]
    simp [LogChain.between, chain, List.range'_succ]

def erc20 : Erc20History chain token where
  transfer _ := ⟨.zero, alice, 8⟩
  genesis _ := 0
  logged log has _ := by
    rw [(has_iff log).mp has]
    exact ⟨rfl, rfl, SmallHistory.areWords_small _ (by decide)⟩

theorem emits_mint : erc20.ledger.emits mint = true := by
  simp [erc20, Erc20History.ledger, emittedAs_iff, mint, logAt]

theorem bookAt_eq (block : Nat) (account : Address) : erc20.ledger.bookAt chain block account =
    if 2 ≤ block ∧ account = alice then 8 else 0 := by
  rw [TokenLedger.bookAt, between_eq]
  by_cases early : block < 2
  · rw [if_pos (by omega), if_neg (by omega)]
    rfl
  · rw [if_neg (by omega), List.filter_cons, if_pos emits_mint]
    have reached : 2 ≤ block := by omega
    by_cases isAlice : account = alice
    · simp [bookAfter, applyMoves, Move.apply, debit, credit, erc20, Erc20History.ledger, isAlice,
        alice_ne_zero, reached]
    · simp [bookAfter, applyMoves, Move.apply, debit, credit, erc20, Erc20History.ledger, isAlice,
        alice_ne_zero]

theorem erc20_valid : erc20.ledger.Valid chain where
  void := rfl
  covered block := by
    rw [between_eq]
    have nothing (moves : RpcLog → List (Move Address)) (book : Address → Nat) :
        WellFormed .zero moves book [] := by
      intro before event occurs
      simp [Lib.EventLog.Occurs] at occurs
    split
    · exact nothing _ _
    · rw [List.filter_cons, if_pos emits_mint]
      exact wellFormed_cons_iff.mpr ⟨⟨.inl rfl, trivial⟩, nothing _ _⟩
  fits block account := by
    have word : 8 < uintBound 256 := by norm_num [uintBound]
    rw [bookAt_eq]
    split <;> omega

theorem describes_mint : Describes (encode mint) mint where
  address := ⟨_, rfl, toAsciiLowercase_bytesHex _⟩
  topics := ⟨_, rfl, by
    rw [List.forall₂_map_left_iff, List.forall₂_same]
    intro topic inTopics
    rcases List.mem_cons.mp inTopics with rfl | inAddresses
    · exact ⟨_, rfl, toAsciiLowercase_topicHash _⟩
    · obtain ⟨address, -, rfl⟩ := List.mem_map.mp inAddresses
      exact ⟨_, rfl, toAsciiLowercase_bytesHex _⟩⟩
  data := ⟨_, rfl, toAsciiLowercase_bytesHex _⟩
  blockNumber := ⟨_, rfl, writesQuantity_hexQuantityText _⟩
  transactionHash := ⟨_, rfl, toAsciiLowercase_bytesHex _⟩
  logIndex := ⟨_, rfl, writesQuantity_hexQuantityText _⟩

/-- The data of a call that asks for the balance of an account. -/
def balanceData (account : Address) : String :=
  bytesHex (encodeCall "balanceOf(address)" [account.val])

theorem balanceData_injective {account other : Address}
    (same : balanceData account = balanceData other) : account = other := by
  have words := List.append_cancel_left (bytesHex_injective same)
  simp only [encodeWords_cons, encodeWords_nil, List.append_nil] at words
  have values := congrArg (fun bytes => beValue (bytes.map UInt8.toNat)) words
  simp only [beValue_wordBytes account.val_lt_word, beValue_wordBytes other.val_lt_word] at values
  exact Address.ext_val values

/-- Whether the parameters of a request select the transfer. -/
def Selected (params : JsonValue) : Prop :=
  let query := (params.asArray.getD []).head?.getD .null
  OneBlockProvider.numberOf (query.index "fromBlock") ≤ 2 ∧
    2 ≤ OneBlockProvider.numberOf (query.index "toBlock") ∧
    mint.address = ((query.index "address").asString).getD "" ∧
    logMatchesFilter mint ⟨((query.index "address").asString).getD "",
      (query.index "topics").asArray.getD []⟩ = true

instance (params : JsonValue) : Decidable (Selected params) :=
  inferInstanceAs (Decidable (_ ∧ _ ∧ _ ∧ _))

def balanceOf (call : JsonValue) (block : Nat) : Nat :=
  if 2 ≤ block ∧ (call.index "data").asString = some (balanceData alice) then 8 else 0

def answer (method : String) (params : JsonValue) : Except RpcError JsonValue :=
  let items := params.asArray.getD []
  if method = "eth_chainId" then .ok (.string "0x1")
  else if method = "eth_getBlockByNumber" then
    .ok (.object [("number", items.head?.getD .null), ("timestamp", .string "0x0"),
      ("hash", .string (hashHex Hash.zero))])
  else if method = "eth_call" then .ok (.string (bytesHex (wordBytes
    (balanceOf (items.head?.getD .null)
      (OneBlockProvider.numberOf (items.tail.head?.getD .null))))))
  else if method = "eth_getLogs" then
    .ok (.array (if Selected params then [encode mint] else []))
  else .error (.transport method "no such method")

def client : RpcClient Unit where
  request method params start := (answer method params, start)
  transportAttempts start := (0, start)
  now start := (0, start)
  expires _ start := (false, start)

theorem selected_logsParams (canonical : LogFilter) (fromBlock toBlock : Nat) :
    Selected (logsParams canonical fromBlock toBlock) ↔ fromBlock ≤ 2 ∧ 2 ≤ toBlock ∧
      mint.address = canonical.address ∧ logMatchesFilter mint canonical = true := by
  obtain ⟨address, topics⟩ := canonical
  have first : ((((logsParams ⟨address, topics⟩ fromBlock toBlock).asArray.getD []).head?.getD
      .null).index "fromBlock") = .string (hexQuantityText fromBlock) := rfl
  have last : ((((logsParams ⟨address, topics⟩ fromBlock toBlock).asArray.getD []).head?.getD
      .null).index "toBlock") = .string (hexQuantityText toBlock) := rfl
  have emitter : ((((logsParams ⟨address, topics⟩ fromBlock toBlock).asArray.getD []).head?.getD
      .null).index "address") = .string address := rfl
  have filters : ((((logsParams ⟨address, topics⟩ fromBlock toBlock).asArray.getD []).head?.getD
      .null).index "topics").asArray.getD [] = topics := by
    cases topics with
    | nil => rfl
    | cons topic rest => rfl
  simp only [Selected, first, last, emitter, filters, OneBlockProvider.numberOf_hexQuantityText,
    JsonValue.asString, Option.getD_some]

theorem answersCanonically (filter : LogFilter) (resultCap : Nat) :
    AnswersCanonically client chain filter resultCap where
  logs := by
    intro canonical canonicalRun fromBlock toBlock start values _ answered
    have answeredPure : answer "eth_getLogs" (logsParams canonical fromBlock toBlock) =
      .ok (.array values) := answered
    rw [answer, if_neg (by decide), if_neg (by decide), if_neg (by decide), if_pos rfl]
      at answeredPure
    by_cases selected : Selected (logsParams canonical fromBlock toBlock)
    · rw [if_pos selected] at answeredPure
      cases answeredPure
      obtain ⟨above, below, address, topics⟩ := (selected_logsParams ..).mp selected
      refine ⟨[mint], .cons describes_mint .nil, fun log member => ?_, fun _ log has _ _ _ => ?_⟩
      · rw [List.mem_singleton.mp member]
        exact ⟨⟨(has_iff _).mpr rfl, (selects_iff canonicalRun _).mp ⟨address, topics⟩⟩, above,
          below⟩
      · rw [(has_iff log).mp has]
        exact List.mem_singleton_self _
    · rw [if_neg selected] at answeredPure
      cases answeredPure
      refine ⟨[], .nil, by simp, fun _ log has selects above below => ?_⟩
      rw [(has_iff log).mp has] at selects above below
      obtain ⟨address, topics⟩ := (selects_iff canonicalRun _).mpr selects
      exact absurd ((selected_logsParams ..).mpr ⟨above, below, address, topics⟩) selected
  receipts := by
    intro block start items answered
    have answeredPure : answer "eth_getBlockReceipts" (blockReceiptsParams block) =
      .ok (.array items) := answered
    simp [answer] at answeredPure

theorem answer_ethCall (contract : Address) (data : List Byte) (block : Nat) :
    answer "eth_call" (ethCallParams contract data (some block)) =
      .ok (.string (bytesHex (wordBytes (if 2 ≤ block ∧ bytesHex data = balanceData alice then 8
        else 0)))) := by
  have tag : OneBlockProvider.numberOf (((ethCallParams contract data (some block)).asArray.getD
      []).tail.head?.getD .null) = block := OneBlockProvider.numberOf_hexQuantityText block
  have text : ((((ethCallParams contract data (some block)).asArray.getD []).head?.getD
      .null).index "data").asString = some (bytesHex data) := rfl
  rw [answer, if_neg (by decide), if_neg (by decide), if_pos rfl, tag, balanceOf, text]
  simp only [Option.some.injEq]

theorem answersErc20 : AnswersErc20 client erc20 := by
  intro account block start value answered
  have answeredPure : answer "eth_call" (ethCallParams token
      (encodeCall "balanceOf(address)" [account.val]) (some block)) = .ok value := answered
  have isAccount : bytesHex (encodeCall "balanceOf(address)" [account.val]) = balanceData alice ↔
      account = alice := ⟨balanceData_injective, fun same => same ▸ rfl⟩
  rw [answer_ethCall] at answeredPure
  simp only [isAccount, ← bookAt_eq] at answeredPure
  cases answeredPure
  simp [JsonValue.asString, strip0x_bytesHex, decodeHexPairs_flatMap_hexByte]

def book : ScoredBook chain where
  Scored other := other = token
  history _ listed := listed ▸ erc20

theorem serves : ServesHistories client SmallHistory.abi book where
  standard := SmallHistory.abi_standard
  ordered := ordered
  logs filter := answersCanonically filter LOG_RESULT_CAP
  valid := by
    rintro _ rfl
    exact erc20_valid
  balances := by
    rintro _ rfl
    exact answersErc20

end SmallScores

end Usd8Core.ScoreApi
