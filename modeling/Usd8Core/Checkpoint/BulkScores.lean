import Usd8Core.Checkpoint.CommittedScores

/-!
# Scores of a claimant set

`BulkScoreSource` replays the transfers of its claimants only, each token from its first paying
block on, where it starts with the balances of an archive node.
-/

set_option autoImplicit false

namespace Usd8Core.Checkpoint

open Std
open Usd8Core.Engine
open Usd8Core.Lib.ByteWords
open Usd8Core.Lib.CheckedCall
open Usd8Core.Lib.OracleCall
open Usd8Core.Score

structure BulkMetadata where
  asOfBlock : Nat
  asOfBlockHash : String
  indexedTransfers : Nat
  indexedTokens : Nat
  trackedAccounts : Nat
  logMetrics : LogMetrics

structure BulkScoreSource where
  scoredTokens : List ScoredToken
  asOfBlock : Nat
  state : CheckpointState
  trackedAccounts : AccountSet
  metadata : BulkMetadata

/-- What the loop over the contributing tokens changes. -/
structure BulkOpening where
  state : CheckpointState
  indexedTransfers : Nat
  logMetrics : LogMetrics
  indexedTokens : AccountSet

section Open

variable {σ : Type} (client : RpcClient σ) (abi : AbiLibrary)

def startAccount (token : Address) (scoringStart : Nat) (accounts : Accounts) (user : Address) :
    Asking σ CheckpointError Accounts := do
  let balance ← mapFailure .history (balanceOfAt client abi token user scoringStart)
  pure (accounts.insert user (.fresh balance scoringStart))

/-- A token that is listed again must be listed in the same way. -/
def checkDuplicate (scored : ScoredToken) (state : CheckpointState) :
    Except CheckpointError Unit := do
  let stored ← orRevert state.tokens[scored.token]?
    (.invalid s!"bulk token {addressHex scored.token} disappeared")
  revertIf (stored.decimals ≠ scored.decimals ∨ stored.rates ≠ scored.rates) (.invalid
    s!"conflicting duplicate scored-token configuration for {addressHex scored.token}")

variable (asOfBlock fuel maxRange resultCap : Nat) (trackedAccounts : AccountSet)

/-- The replay of a token that was not listed before. -/
def replayBulkToken (scored : ScoredToken) :
    Asking σ CheckpointError (Nat × LogMetrics × TokenState) := do
  let scoringStart ← liftResult (orRevert (firstContributingBlock scored asOfBlock)
    (.invalid s!"bulk token {addressHex scored.token} has no contributing rate segment"))
  let accounts ← trackedAccounts.toList.foldlM
    (startAccount client abi scored.token scoringStart) ∅
  advanceToken client abi scored (some trackedAccounts) fuel
    ⟨scored.decimals, scoringStart, ZERO_HASH, scored.rates, accounts⟩ asOfBlock maxRange resultCap

def openBulkToken (opening : BulkOpening) (scored : ScoredToken) :
    Asking σ CheckpointError BulkOpening := do
  liftResult ((validateRates scored.rates).mapError core)
  if opening.indexedTokens.contains scored.token then do
    liftResult (checkDuplicate scored opening.state)
    pure opening
  else do
    let (count, metrics, token) ← replayBulkToken client abi asOfBlock fuel maxRange resultCap
      trackedAccounts scored
    pure ⟨{ opening.state with tokens := opening.state.tokens.insert scored.token token },
      saturatingAdd opening.indexedTransfers count, mergeLogMetrics opening.logMetrics metrics,
      opening.indexedTokens.insert scored.token⟩

def checkBulkBalance (address : Address) (token : TokenState) (user : Address) :
    Asking σ CheckpointError Unit := do
  let indexed := (token.accounts[user]?.map AccountScoreState.balance).getD 0
  let actual ← mapFailure .history (balanceOfAt client abi address user asOfBlock)
  liftResult (revertIf (actual ≠ indexed) (.invalid
    s!"unsupported token balance semantics for {addressHex address}: indexed balance {
      indexed}, balanceOf({addressHex user}) at block {asOfBlock} is {actual}"))

def checkBulkToken (state : CheckpointState) (address : Address) :
    Asking σ CheckpointError Unit := do
  let token ← liftResult (orRevert state.tokens[address]?
    (.invalid s!"missing token {addressHex address}"))
  trackedAccounts.toList.forM (checkBulkBalance client abi asOfBlock address token)

/-- `BulkScoreSource::open` -/
def openBulkSource (scoredTokens : List ScoredToken) (expectedChainId : Nat) :
    Asking σ CheckpointError BulkScoreSource := do
  liftResult (revertIf (trackedAccounts.toList.any (· = .zero) = true)
    (.invalid "bulk score claimant set contains the zero address"))
  let actualChainId ← mapFailure .anchor (chainId client)
  liftResult (revertIf (actualChainId ≠ expectedChainId) (.invalid
    s!"RPC chain {actualChainId} does not match expected chain {expectedChainId}"))
  let opening ← (scoredTokens.filter (contributesAt · asOfBlock)).foldlM
    (openBulkToken client abi asOfBlock fuel maxRange resultCap trackedAccounts)
    ⟨⟨expectedChainId, ∅⟩, 0, .default, ∅⟩
  opening.indexedTokens.toList.forM
    (checkBulkToken client abi asOfBlock trackedAccounts opening.state)
  let anchor ← mapFailure .anchor (blockByNumber client asOfBlock)
  pure ⟨scoredTokens, asOfBlock, opening.state, trackedAccounts,
    ⟨asOfBlock, hashHex anchor.hash, opening.indexedTransfers, opening.indexedTokens.size,
      trackedAccounts.size, opening.logMetrics⟩⟩

end Open

/-- One iteration of the loop of `gross_score_of`. -/
def BulkScoreSource.addNumerator (source : BulkScoreSource) (user : Address) (numerator : Nat)
    (scored : ScoredToken) : Except CheckpointError Nat :=
  if contributesAt scored source.asOfBlock = false then pure numerator
  else do
    let token ← orRevert source.state.tokens[scored.token]?
      (.invalid s!"missing token {addressHex scored.token}")
    let projected ← (projectedNumerator (entryOf token.accounts user) source.asOfBlock scored.rates
      scored.decimals).mapError core
    pure (numerator + projected)

/-- `BulkScoreSource::gross_score_of` -/
def BulkScoreSource.grossScoreOf (source : BulkScoreSource) (user : Address) :
    Except CheckpointError Nat := do
  revertIf (source.trackedAccounts.contains user = false)
    (.invalid s!"bulk score requested for untracked claimant {addressHex user}")
  let numerator ← source.scoredTokens.foldlM (source.addNumerator user) 0
  pure (grossScore numerator)

/-! ## What is known of an opened source -/

/-- Every token was replayed to the block from its first paying one. -/
def BulkFollows {chain : LogChain} (book : ScoredBook chain) (trackedAccounts : AccountSet)
    (asOfBlock : Nat) (state : CheckpointState) : Prop :=
  ∀ address (listed : book.Scored address) token, state.tokens[address]? = some token →
    token.cursorBlock = asOfBlock ∧ Ascending token.rates ∧
      ∃ start, firstContributingBlock ⟨address, token.decimals, token.rates⟩ asOfBlock = some start ∧
        ∀ user, user ≠ .zero → trackedAccounts.contains user = true →
          Follows (book.history address listed) user
            ((book.history address listed).ledger.bookAt chain start user) start token

/-- The state has the token as it is listed. -/
def ListedAs (state : CheckpointState) (scored : ScoredToken) : Prop :=
  ∃ token, state.tokens[scored.token]? = some token ∧ token.decimals = scored.decimals ∧
    token.rates = scored.rates

section Opening

variable {σ : Type} {client : RpcClient σ} {abi : AbiLibrary} {chain : LogChain}
  {book : ScoredBook chain} {scored : ScoredToken} {trackedAccounts : AccountSet}
  {asOfBlock fuel maxRange resultCap : Nat} {account : Address}

theorem ends_startAccounts (serves : ServesBook client abi book)
    (listed : book.Scored scored.token) (scoringStart : Nat) (users : List Address)
    (accounts : Accounts) :
    Ends (fun result => ∀ user, user ∈ users ∨ accounts[user]? = some (.fresh
        ((book.history scored.token listed).ledger.bookAt chain scoringStart user) scoringStart) →
          result[user]? = some (.fresh
            ((book.history scored.token listed).ledger.bookAt chain scoringStart user)
            scoringStart)) (fun _ => True)
      (users.foldlM (startAccount client abi scored.token scoringStart) accounts) := by
  induction users generalizing accounts with
  | nil => exact ends_pure fun user => by simp
  | cons first rest ih =>
      rw [List.foldlM_cons]
      have started : Ends (fun next : Accounts => next = accounts.insert first (.fresh
          ((book.history scored.token listed).ledger.bookAt chain scoringStart first)
          scoringStart)) (fun _ => True)
          (startAccount client abi scored.token scoringStart accounts first) := by
        have read : Ends (fun balance => balance =
            (book.history scored.token listed).ledger.bookAt chain scoringStart first)
            (fun _ => True) (mapFailure CheckpointError.history
              (balanceOfAt client abi scored.token first scoringStart)) :=
          (yields_balanceOfAt serves.standard (serves.valid _ listed)
            (serves.balances _ listed)).mapFailure fun _ _ => trivial
        exact read.bind fun balance isBalance => ends_pure (by rw [isBalance])
      refine started.bind fun next isNext => ?_
      refine (ih next).mono (fun result isResult user isUser => isResult user ?_) fun _ => id
      rw [isNext, TreeMap.getElem?_insert]
      by_cases isFirst : first = user
      · subst isFirst
        exact .inr (if_pos ReflCmp.compare_self)
      · rw [if_neg fun equal => isFirst (LawfulEqCmp.eq_of_compare equal)]
        rcases isUser with member | there
        · exact .inl ((List.mem_cons.mp member).resolve_left (Ne.symm isFirst))
        · exact .inr there

/-- A replay that succeeds leaves the token as `BulkFollows` has it. -/
theorem ends_replayBulkToken (serves : ServesBook client abi book)
    (answers : ∀ filter, AnswersCanonically client chain filter resultCap)
    (inWord : asOfBlock ≤ maxU64) (listed : book.Scored scored.token) :
    Ends (fun result => result.2.2.decimals = scored.decimals ∧ result.2.2.rates = scored.rates ∧
        result.2.2.cursorBlock = asOfBlock ∧
        ∃ start, firstContributingBlock scored asOfBlock = some start ∧
          ∀ user, user ≠ .zero → trackedAccounts.contains user = true →
            Follows (book.history scored.token listed) user
              ((book.history scored.token listed).ledger.bookAt chain start user) start
              result.2.2) (fun _ => True)
      (replayBulkToken client abi asOfBlock fuel maxRange resultCap trackedAccounts scored) := by
  have begun : Ends (fun start => firstContributingBlock scored asOfBlock = some start)
      (fun _ => True) (liftResult (orRevert (firstContributingBlock scored asOfBlock)
        (.invalid s!"bulk token {addressHex scored.token} has no contributing rate segment")) :
          Asking σ CheckpointError Nat) :=
    ends_liftResult (fun _ run => (orRevert_ok_iff _ _ _).mp run) fun _ _ => trivial
  refine begun.bind fun start isStart => ?_
  refine (ends_startAccounts serves listed start trackedAccounts.toList ∅).bind
    fun accounts started => ?_
  refine (ends_advanceToken_applied (book.history scored.token listed) serves.standard
    serves.ordered answers inWord fuel _).mono (fun result advanced => ?_) fun _ => id
  refine ⟨advanced.2.1, ?_, advanced.1, start, isStart, fun user kept isTracked => ?_⟩
  · obtain ⟨-, -, unchanged | ⟨-, isRates, -⟩⟩ := advanced
    · rw [unchanged]
    · exact isRates
  · have entry := started user (.inl (TreeSet.mem_toList.mpr (TreeSet.contains_iff_mem.mp isTracked)))
    refine (follows_start rfl ?_).advance kept (fun set isSet => ?_) (KnownAt.refl _ _) advanced
    · rw [entryOf, entry]
      rfl
    · cases isSet
      exact isTracked

/-- The tokens with an entry have been indexed. -/
def Indexed (opening : BulkOpening) : Prop :=
  ∀ address token, opening.state.tokens[address]? = some token →
    opening.indexedTokens.contains address = true

theorem ends_openBulkToken (serves : ServesBook client abi book)
    (answers : ∀ filter, AnswersCanonically client chain filter resultCap)
    (inWord : asOfBlock ≤ maxU64) (listed : book.Scored scored.token) {opening : BulkOpening}
    (follows : BulkFollows book trackedAccounts asOfBlock opening.state)
    (indexed : Indexed opening) :
    Ends (fun next => (BulkFollows book trackedAccounts asOfBlock next.state ∧ Indexed next) ∧
        ListedAs next.state scored ∧
        ∀ other, ListedAs opening.state other → ListedAs next.state other) (fun _ => True)
      (openBulkToken client abi asOfBlock fuel maxRange resultCap trackedAccounts opening
        scored) := by
  have validated : Ends (fun _ => Ascending scored.rates) (fun _ => True)
      (liftResult ((validateRates scored.rates).mapError core) :
        Asking σ CheckpointError Unit) := by
    refine ends_liftResult (fun _ valid => ?_) fun _ _ => trivial
    exact not_not.mp ((revertIf_ok_iff _ _ _).mp ((mapError_ok_iff _ _ _).mp valid))
  refine validated.bind fun _ ascending => ends_ite (fun again => ?_) fun first => ?_
  · have checked : Ends (fun _ => ListedAs opening.state scored) (fun _ => True)
        (liftResult (checkDuplicate scored opening.state) : Asking σ CheckpointError Unit) := by
      refine ends_liftResult (fun _ run => ?_) fun _ _ => trivial
      obtain ⟨stored, found, same⟩ := (bind_ok_iff _ _ _).mp run
      rw [revertIf_ok_iff, not_or, not_not, not_not] at same
      exact ⟨stored, (orRevert_ok_iff _ _ _).mp found, same.1, same.2⟩
    exact checked.bind fun _ isListed => ends_pure ⟨⟨follows, indexed⟩, isListed, fun _ => id⟩
  · refine (ends_replayBulkToken serves answers inWord listed).bind
      fun result replayed => ?_
    obtain ⟨count, metrics, token⟩ := result
    obtain ⟨decimals, isRates, cursor, start, isStart, each⟩ := replayed
    dsimp only at decimals isRates cursor each ⊢
    refine ends_pure ⟨⟨?_, ?_⟩, ⟨token, TreeMap.getElem?_insert_self, decimals, isRates⟩, ?_⟩
    · intro address isListed found isFound
      rw [TreeMap.getElem?_insert] at isFound
      split at isFound
      next equal =>
        cases LawfulEqCmp.eq_of_compare equal
        cases isFound
        refine ⟨cursor, isRates ▸ ascending, start, ?_, each⟩
        rw [decimals, isRates]
        exact isStart
      next => exact follows address isListed found isFound
    · intro address found isFound
      rw [TreeMap.getElem?_insert] at isFound
      rw [TreeSet.contains_insert]
      split at isFound
      next equal => simp [equal]
      next => simp [indexed address found isFound]
    · intro other isListed
      obtain ⟨stored, found, same⟩ := isListed
      have apart : scored.token ≠ other.token := by
        intro isToken
        exact first (isToken ▸ indexed _ _ found)
      refine ⟨stored, ?_, same⟩
      rw [TreeMap.getElem?_insert, if_neg fun equal => apart (LawfulEqCmp.eq_of_compare equal)]
      exact found

theorem ends_openBulkTokens (serves : ServesBook client abi book)
    (answers : ∀ filter, AnswersCanonically client chain filter resultCap)
    (inWord : asOfBlock ≤ maxU64) (active : List ScoredToken)
    (listed : ∀ scored ∈ active, book.Scored scored.token) {opening : BulkOpening}
    (follows : BulkFollows book trackedAccounts asOfBlock opening.state)
    (indexed : Indexed opening) :
    Ends (fun last => BulkFollows book trackedAccounts asOfBlock last.state ∧
        (∀ scored ∈ active, ListedAs last.state scored) ∧
        ∀ other, ListedAs opening.state other → ListedAs last.state other) (fun _ => True)
      (active.foldlM (openBulkToken client abi asOfBlock fuel maxRange resultCap trackedAccounts)
        opening) := by
  induction active generalizing opening with
  | nil => exact ends_pure ⟨follows, by simp, fun _ => id⟩
  | cons scored rest ih =>
      rw [List.foldlM_cons]
      refine (ends_openBulkToken serves answers inWord (listed scored List.mem_cons_self) follows
        indexed).bind fun middle isMiddle => ?_
      obtain ⟨⟨middleFollows, middleIndexed⟩, isListed, kept⟩ := isMiddle
      refine (ih (fun other member => listed other (List.mem_cons_of_mem _ member)) middleFollows
        middleIndexed).mono (fun last isLast => ?_) fun _ => id
      obtain ⟨lastFollows, each, keptLater⟩ := isLast
      exact ⟨lastFollows, List.forall_mem_cons.mpr ⟨keptLater scored isListed, each⟩,
        fun other ready => keptLater other (kept other ready)⟩

/-- What an opened bulk source is known to be. -/
structure BulkOpenedAt (book : ScoredBook chain) (trackedAccounts : AccountSet) (asOfBlock : Nat)
    (scoredTokens : List ScoredToken) (source : BulkScoreSource) : Prop where
  tokens : source.scoredTokens = scoredTokens
  block : source.asOfBlock = asOfBlock
  tracked : source.trackedAccounts = trackedAccounts
  follows : BulkFollows book trackedAccounts asOfBlock source.state
  ready : ∀ scored ∈ scoredTokens, contributesAt scored asOfBlock = true →
    ListedAs source.state scored

variable {scoredTokens : List ScoredToken} {source : BulkScoreSource}

theorem ends_openBulkSource {expectedChainId : Nat} (serves : ServesBook client abi book)
    (answers : ∀ filter, AnswersCanonically client chain filter resultCap)
    (inWord : asOfBlock ≤ maxU64) (listed : ∀ scored ∈ scoredTokens, book.Scored scored.token) :
    Ends (BulkOpenedAt book trackedAccounts asOfBlock scoredTokens) (fun _ => True)
      (openBulkSource client abi asOfBlock fuel maxRange resultCap trackedAccounts scoredTokens
        expectedChainId) := by
  have nothing : BulkFollows book trackedAccounts asOfBlock ⟨expectedChainId, ∅⟩ := by
    intro address _ token isToken
    simp at isToken
  have noKeys : Indexed ⟨⟨expectedChainId, ∅⟩, 0, .default, ∅⟩ := by
    intro address token isToken
    simp at isToken
  refine ends_true.bind fun _ _ => ends_true.bind fun actualChainId _ => ?_
  refine ends_true.bind fun _ _ => ?_
  refine (ends_openBulkTokens serves answers inWord _ (fun scored member =>
    listed scored (List.mem_of_mem_filter member)) nothing noKeys).bind fun opening isOpening => ?_
  refine ends_true.bind fun _ _ => ends_true.bind fun anchor _ => ends_pure ?_
  refine ⟨rfl, rfl, rfl, isOpening.1, fun scored member contributes => ?_⟩
  exact isOpening.2.1 scored (List.mem_filter.mpr ⟨member, contributes⟩)

/-! ## The score of a source -/

/-- No segment that pays begins before the first contributing block. -/
theorem firstContributingBlock_first {start : Nat} (ascending : Ascending scored.rates)
    (first : firstContributingBlock scored asOfBlock = some start) :
    ∀ segment ∈ segments scored.rates, segment.1.rate ≠ 0 →
      segment.1.fromBlock < overlapTo segment.2 asOfBlock → start ≤ segment.1.fromBlock := by
  unfold firstContributingBlock at first
  have ordered := segments_follow ascending
  generalize segments scored.rates = visited at first ordered
  induction visited with
  | nil => simp
  | cons segment rest ih =>
      obtain ⟨head, tail⟩ := List.pairwise_cons.mp ordered
      rw [List.findSome?_cons] at first
      dsimp only at first
      rw [min_getD_eq_overlapTo] at first
      by_cases pays : segment.1.rate ≠ 0 ∧ segment.1.fromBlock < overlapTo segment.2 asOfBlock
      · rw [if_pos pays] at first
        cases first
        intro other member _ _
        rcases List.mem_cons.mp member with rfl | later
        · exact Nat.le_refl _
        · obtain ⟨next, -, begins, ends⟩ := head other later
          omega
      · rw [if_neg pays] at first
        intro other member noRate inside
        rcases List.mem_cons.mp member with rfl | later
        · exact absurd ⟨noRate, inside⟩ pays
        · exact ih first tail other later noRate inside

theorem BulkOpenedAt.addNumerator_ok (serves : ServesBook client abi book)
    (opened : BulkOpenedAt book trackedAccounts asOfBlock scoredTokens source)
    (kept : account ≠ .zero) (isTracked : trackedAccounts.contains account = true)
    (member : scored ∈ scoredTokens) (listed : book.Scored scored.token) {numerator result : Nat}
    (run : source.addNumerator account numerator scored = .ok result) :
    result = numerator +
      bookNumerator account asOfBlock scored (book.history scored.token listed) := by
  unfold BulkScoreSource.addNumerator at run
  rw [opened.block] at run
  rcases (ite_ok_iff _ _ _ _).mp run with ⟨idle, run⟩ | ⟨pays, run⟩
  · rw [← (pure_ok_iff _ _).mp run, bookNumerator_idle idle, Nat.add_zero]
  · obtain ⟨token, found, isDecimals, isRates⟩ := opened.ready scored member (by simpa using pays)
    obtain ⟨stored, isStored, run⟩ := (bind_ok_iff _ _ _).mp run
    cases found.symm.trans ((orRevert_ok_iff _ _ _).mp isStored)
    obtain ⟨projected, isProjected, run⟩ := (bind_ok_iff _ _ _).mp run
    rw [← (pure_ok_iff _ _).mp run]
    obtain ⟨cursor, ascending, start, first, each⟩ := opened.follows _ listed token found
    rw [isDecimals, isRates] at first
    rw [isRates] at ascending
    have projects := (each account kept isTracked).projects kept ascending
      (by rw [isRates]; exact KnownAt.refl _ _)
    rw [cursor, isDecimals] at projects
    have isNumerator := Except.ok.inj (((mapError_ok_iff _ _ _).mp isProjected).symm.trans projects)
    rw [isNumerator]
    congr 1
    refine expectedNumerator_from (firstContributingBlock_first ascending first) ?_
    intro block reached early
    exact heldDuring_eq kept (serves.valid _ listed) reached early.le

/-- A bulk source returns the score of the books. -/
theorem BulkOpenedAt.grossScoreOf_ok (serves : ServesBook client abi book)
    (opened : BulkOpenedAt book trackedAccounts asOfBlock scoredTokens source)
    (kept : account ≠ .zero) (listed : ∀ scored ∈ scoredTokens, book.Scored scored.token)
    {score : Nat} (run : source.grossScoreOf account = .ok score) :
    ScoreIs book account asOfBlock scoredTokens score := by
  obtain ⟨_, tracked, run⟩ := (bind_ok_iff _ _ _).mp run
  obtain ⟨numerator, summed, result⟩ := (bind_ok_iff _ _ _).mp run
  rw [revertIf_ok_iff, opened.tracked, Bool.not_eq_false] at tracked
  rw [opened.tokens] at summed
  have sums (visited : List ScoredToken) (all : ∀ scored ∈ visited, scored ∈ scoredTokens)
      (start : Nat) (ran : visited.foldlM (source.addNumerator account) start = .ok numerator) :
      ∃ numerators, List.Forall₂ (ValueOf book (bookNumerator account asOfBlock)) visited
        numerators ∧ numerator = start + numerators.sum := by
    induction visited generalizing start with
    | nil => exact ⟨[], .nil, ((pure_ok_iff _ _).mp ran).symm⟩
    | cons scored rest ih =>
        rw [List.foldlM_cons] at ran
        obtain ⟨middle, first, ran⟩ := (bind_ok_iff _ _ _).mp ran
        have member := all scored List.mem_cons_self
        have isListed := listed scored member
        have isMiddle := opened.addNumerator_ok serves kept tracked member isListed first
        obtain ⟨numerators, values, isSum⟩ := ih (fun other later =>
          all other (List.mem_cons_of_mem _ later)) middle ran
        exact ⟨_, .cons ⟨isListed, rfl⟩ values, by
          rw [isSum, isMiddle, List.sum_cons, Nat.add_assoc]⟩
  obtain ⟨numerators, values, isSum⟩ := sums scoredTokens (fun _ => id) 0 summed
  refine ⟨numerators, values, ?_⟩
  rw [← (pure_ok_iff _ _).mp result, isSum, Nat.zero_add]

end Opening

end Usd8Core.Checkpoint
