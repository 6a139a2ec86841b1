import Usd8Core.Checkpoint.AccountReplay
import Usd8Core.Checkpoint.ScoreSource

/-!
# Scores from a checkpoint

A source goes on from what an earlier one committed.  Every account in it is where one replay
from the beginning would have it; so the score it returns is that of the books.
-/

set_option autoImplicit false

namespace Usd8Core.Checkpoint

open Std
open Usd8Core.Engine
open Usd8Core.Lib.ByteWords
open Usd8Core.Lib.CheckedCall
open Usd8Core.Lib.OracleCall
open Usd8Core.Score

section GrossScore

variable {σ : Type} (client : RpcClient σ) (abi : AbiLibrary)

/-- One iteration of the loop of `gross_score_of`. -/
def CheckpointScoreSource.addNumerator (source : CheckpointScoreSource) (user : Address)
    (numerator : Nat) (scored : ScoredToken) : Asking σ CheckpointError Nat :=
  if contributesAt scored source.asOfBlock = false then pure numerator
  else do
    let token ← liftResult (orRevert source.state.tokens[scored.token]?
      (.invalid s!"missing token {addressHex scored.token}"))
    let account := entryOf token.accounts user
    let actual ← mapFailure .history (balanceOfAt client abi scored.token user source.asOfBlock)
    liftResult (revertIf (actual ≠ account.balance) (.invalid
      s!"unsupported token balance semantics for {addressHex scored.token}: indexed balance {
        account.balance}, balanceOf({addressHex user}) at block {source.asOfBlock} is {actual}"))
    let projected ← liftResult ((projectedNumerator account source.asOfBlock scored.rates
      scored.decimals).mapError core)
    pure (numerator + projected)

/-- `CheckpointScoreSource::gross_score_of` -/
def CheckpointScoreSource.grossScoreOf (source : CheckpointScoreSource) (user : Address) :
    Asking σ CheckpointError Nat := do
  let numerator ← source.scoredTokens.foldlM (source.addNumerator client abi user) 0
  pure (grossScore numerator)

end GrossScore

/-! ## What is known of an opened source -/

/-- Every account of every token is where a replay from the beginning would have it. -/
def StateFollows {chain : LogChain} (book : ScoredBook chain) (state : CheckpointState) : Prop :=
  ∀ token (listed : book.Scored token) found, state.tokens[token]? = some found →
    ∀ account, account ≠ .zero → Follows (book.history token listed) account 0 0 found

/-- The token has been replayed to the block, with rates that the scored token goes on from. -/
structure ReplayedTo (asOfBlock : Nat) (scored : ScoredToken) (token : TokenState) : Prop where
  cursor : token.cursorBlock = asOfBlock
  decimals : token.decimals = scored.decimals
  known : KnownAt scored.rates asOfBlock token.rates
  ascending : Ascending scored.rates

def ReadyFor (asOfBlock : Nat) (state : CheckpointState) (scored : ScoredToken) : Prop :=
  ∃ token, state.tokens[scored.token]? = some token ∧ ReplayedTo asOfBlock scored token

section Opening

variable {σ : Type} {client : RpcClient σ} {abi : AbiLibrary} {chain : LogChain}
  {book : ScoredBook chain} {scored : ScoredToken} {token : TokenState} {state : CheckpointState}
  {asOfBlock fuel maxRange resultCap : Nat}

/-- The stored rates are the first ones of the list, and the others begin after the cursor. -/
theorem validateStoredToken_known (valid : validateStoredToken token scored = .ok ()) :
    token.decimals = scored.decimals ∧ KnownAt scored.rates token.cursorBlock token.rates := by
  obtain ⟨_, decimals, valid⟩ := (bind_ok_iff _ _ _).mp valid
  obtain ⟨_, longer, valid⟩ := (bind_ok_iff _ _ _).mp valid
  obtain ⟨checked, same, later⟩ := (bind_ok_iff _ _ _).mp valid
  rw [revertIf_ok_iff, not_not] at decimals
  rw [revertIf_ok_iff, List.any_eq_true] at later
  have isPrefix : token.rates <+: scored.rates := by
    rw [List.prefix_iff_getElem?]
    intro index inRange
    have indexed : (token.rates[index], index) ∈ token.rates.zipIdx := by
      rw [List.mk_mem_zipIdx_iff_getElem?, List.getElem?_eq_getElem inRange]
    obtain ⟨_, -, passes⟩ := exists_right_of_mem ((mapM_ok_iff _ _ _).mp same) indexed
    exact not_not.mp ((revertIf_ok_iff _ _ _).mp passes)
  obtain ⟨more, isRates⟩ := isPrefix
  rw [← isRates, List.drop_left] at later
  refine ⟨decimals, more, isRates.symm, fun point member => ?_⟩
  by_contra early
  exact later ⟨point, member, decide_eq_true (Nat.not_lt.mp early)⟩

theorem ends_storedToken_known (follows : StateFollows book state)
    (listed : book.Scored scored.token) :
    Ends (fun token => token.decimals = scored.decimals ∧
        KnownAt scored.rates token.cursorBlock token.rates ∧
        (∀ stored, state.tokens[scored.token]? = some stored → token = stored) ∧
        ∀ account, account ≠ .zero → Follows (book.history scored.token listed) account 0 0 token)
      (fun _ => True) (storedToken client scored state.tokens[scored.token]?) := by
  cases found : state.tokens[scored.token]? with
  | none =>
      refine ends_pure ⟨rfl, KnownAt.refl _ _, by simp, fun account _ => follows_start rfl ?_⟩
      simp [TokenState.initial, entryOf]
  | some stored =>
      have validated : Ends (fun _ => stored.decimals = scored.decimals ∧
          KnownAt scored.rates stored.cursorBlock stored.rates) (fun _ => True)
          (liftResult (validateStoredToken stored scored) : Asking σ CheckpointError Unit) :=
        ends_liftResult (fun _ valid => validateStoredToken_known valid) fun _ _ => trivial
      refine validated.bind fun _ known => ends_true.bind fun _ _ => ends_pure ?_
      exact ⟨known.1, known.2, fun _ same => Option.some.inj same,
        follows scored.token listed stored found⟩

/-- What one token is replayed to, the tokens before it stay replayed to. -/
theorem ends_openToken_follows (serves : ServesBook client abi book)
    (answers : ∀ filter, AnswersCanonically client chain filter resultCap)
    (inWord : asOfBlock ≤ maxU64) (listed : book.Scored scored.token) {opening : Opening}
    (follows : StateFollows book opening.state) :
    Ends (fun next => StateFollows book next.state ∧ ReadyFor asOfBlock next.state scored ∧
        ∀ other, ReadyFor asOfBlock opening.state other → ReadyFor asOfBlock next.state other)
      (fun _ => True) (openToken client abi asOfBlock fuel maxRange resultCap opening scored) := by
  have validated : Ends (fun _ => Ascending scored.rates) (fun _ => True)
      (liftResult ((validateRates scored.rates).mapError core) :
        Asking σ CheckpointError Unit) := by
    refine ends_liftResult (fun _ valid => ?_) fun _ _ => trivial
    exact not_not.mp ((revertIf_ok_iff _ _ _).mp ((mapError_ok_iff _ _ _).mp valid))
  refine validated.bind fun _ ascending => ?_
  refine (ends_storedToken_known follows listed).bind fun token isStored => ?_
  obtain ⟨decimals, known, same, tokenFollows⟩ := isStored
  refine (ends_advanceToken_applied (book.history scored.token listed) serves.standard
    serves.ordered answers inWord fuel token).bind fun result advanced => ?_
  obtain ⟨count, metrics, next⟩ := result
  dsimp only at advanced ⊢
  refine ends_pure ⟨?_, ?_, ?_⟩
  · intro address isListed found isFound account kept
    rw [TreeMap.getElem?_insert] at isFound
    split at isFound
    next equal =>
      cases LawfulEqCmp.eq_of_compare equal
      cases isFound
      exact (tokenFollows account kept).advance kept (fun _ none => by cases none) known advanced
    next => exact follows address isListed found isFound account kept
  · refine ⟨next, TreeMap.getElem?_insert_self, advanced.1, advanced.2.1.trans decimals, ?_,
      ascending⟩
    obtain ⟨cursor, -, unchanged | ⟨-, isRates, -⟩⟩ := advanced
    · rw [← cursor, unchanged]
      exact known
    · rw [isRates]
      exact KnownAt.refl _ _
  · intro other ready
    obtain ⟨stored, found, replayed⟩ := ready
    by_cases isToken : scored.token = other.token
    · -- replayed before, the token is not advanced again
      have isStored := same stored (isToken ▸ found)
      obtain ⟨cursor, -, unchanged | ⟨behind, -, -⟩⟩ := advanced
      · refine ⟨next, ?_, ?_⟩
        · rw [← isToken]
          exact TreeMap.getElem?_insert_self
        · rw [unchanged, isStored]
          exact replayed
      · rw [isStored, replayed.cursor] at behind
        omega
    · refine ⟨stored, ?_, replayed⟩
      rw [TreeMap.getElem?_insert, if_neg fun equal => isToken (LawfulEqCmp.eq_of_compare equal)]
      exact found

theorem ends_openTokens_follow (serves : ServesBook client abi book)
    (answers : ∀ filter, AnswersCanonically client chain filter resultCap)
    (inWord : asOfBlock ≤ maxU64) (active : List ScoredToken)
    (listed : ∀ scored ∈ active, book.Scored scored.token) {opening : Opening}
    (follows : StateFollows book opening.state) :
    Ends (fun last => StateFollows book last.state ∧
        (∀ scored ∈ active, ReadyFor asOfBlock last.state scored) ∧
        ∀ other, ReadyFor asOfBlock opening.state other → ReadyFor asOfBlock last.state other)
      (fun _ => True)
      (active.foldlM (openToken client abi asOfBlock fuel maxRange resultCap) opening) := by
  induction active generalizing opening with
  | nil => exact ends_pure ⟨follows, by simp, fun _ => id⟩
  | cons scored rest ih =>
      rw [List.foldlM_cons]
      refine (ends_openToken_follows serves answers inWord (listed scored List.mem_cons_self)
        follows).bind fun middle isMiddle => ?_
      obtain ⟨middleFollows, ready, kept⟩ := isMiddle
      refine (ih (fun other member => listed other (List.mem_cons_of_mem _ member))
        middleFollows).mono (fun last isLast => ?_) fun _ => id
      obtain ⟨lastFollows, each, keptLater⟩ := isLast
      exact ⟨lastFollows, List.forall_mem_cons.mpr ⟨keptLater scored ready, each⟩,
        fun other isReady => keptLater other (kept other isReady)⟩

/-- What an opened source is known to be. -/
structure OpenedAt (book : ScoredBook chain) (asOfBlock : Nat) (scoredTokens : List ScoredToken)
    (source : CheckpointScoreSource) : Prop where
  tokens : source.scoredTokens = scoredTokens
  block : source.asOfBlock = asOfBlock
  follows : StateFollows book source.state
  ready : ∀ scored ∈ scoredTokens, contributesAt scored asOfBlock = true →
    ReadyFor asOfBlock source.state scored

theorem ends_openSource_follows {stored : Option PersistedCheckpoint}
    {scoredTokens : List ScoredToken} {expectedChainId : Nat} {integrityKey : List Byte}
    (serves : ServesBook client abi book)
    (answers : ∀ filter, AnswersCanonically client chain filter resultCap)
    (inWord : asOfBlock ≤ maxU64) (listed : ∀ scored ∈ scoredTokens, book.Scored scored.token)
    (follows : ∀ checkpoint, stored = some checkpoint → ∀ state,
      parseState checkpoint = .ok state → StateFollows book state) :
    Ends (OpenedAt book asOfBlock scoredTokens) (fun _ => True)
      (openSource client abi asOfBlock fuel maxRange resultCap stored scoredTokens expectedChainId
        integrityKey) := by
  have loaded : Ends (fun state => StateFollows book state) (fun _ => True)
      (liftResult (loadCheckpoint stored expectedChainId) :
        Asking σ CheckpointError CheckpointState) := by
    refine ends_liftResult (fun state read => ?_) fun _ _ => trivial
    cases stored with
    | none =>
        cases (pure_ok_iff _ _).mp read
        intro token _ found isFound
        simp at isFound
    | some checkpoint =>
        obtain ⟨parsed, isParsed, read⟩ := (bind_ok_iff _ _ _).mp read
        obtain ⟨_, -, read⟩ := (bind_ok_iff _ _ _).mp read
        cases (pure_ok_iff _ _).mp read
        exact follows checkpoint rfl _ isParsed
  refine ends_true.bind fun _ _ => ends_true.bind fun actualChainId _ => ?_
  refine ends_true.bind fun _ _ => loaded.bind fun state isLoaded => ?_
  refine (ends_openTokens_follow serves answers inWord _ (fun scored member =>
    listed scored (List.mem_of_mem_filter member)) isLoaded).bind fun opening isOpening => ?_
  refine ends_true.bind fun anchor _ => ends_pure ⟨rfl, rfl, isOpening.1, ?_⟩
  intro scored member contributes
  exact isOpening.2.1 scored (List.mem_filter.mpr ⟨member, contributes⟩)

end Opening

/-! ## Commits -/

/-- What a sequence of openings, each on what the one before committed, has in its file. -/
inductive Committed {σ : Type} (client : RpcClient σ) (abi : AbiLibrary) {chain : LogChain}
    (book : ScoredBook chain) : Option PersistedCheckpoint → Prop
  | nothing : Committed client abi book none
  | commit {stored : Option PersistedCheckpoint} {scoredTokens : List ScoredToken}
      {asOfBlock fuel maxRange resultCap expectedChainId : Nat} {integrityKey : List Byte}
      {start : σ} {source : CheckpointScoreSource} {persisted : PersistedCheckpoint}
      (earlier : Committed client abi book stored)
      (answers : ∀ filter, AnswersCanonically client chain filter resultCap)
      (inWord : asOfBlock ≤ maxU64) (listed : ∀ scored ∈ scoredTokens, book.Scored scored.token)
      (ratesInWord : ∀ scored ∈ scoredTokens, ∀ point ∈ scored.rates, point.fromBlock ≤ maxU64)
      (opened : (runFrom (openSource client abi asOfBlock fuel maxRange resultCap stored scoredTokens
        expectedChainId integrityKey) start).1 = .ok source)
      (written : source.commit integrityKey = .ok persisted) :
      Committed client abi book (some persisted)

section Committing

variable {σ : Type} {client : RpcClient σ} {abi : AbiLibrary} {chain : LogChain}
  {book : ScoredBook chain} {stored : Option PersistedCheckpoint}

theorem SameToken.follows {first second : TokenState} {token account : Address} {base start : Nat}
    {history : Erc20History chain token} (same : SameToken first second)
    (follows : Follows history account base start first) :
    Follows history account base start second := by
  have entry : entryOf second.accounts account = entryOf first.accounts account := by
    rw [entryOf, entryOf, same.accounts]
  obtain ⟨begun, ran⟩ := follows
  rw [same.cursorBlock, same.decimals, same.rates, ← entry] at ran
  exact ⟨same.cursorBlock ▸ begun, ran⟩

theorem SameState.follows {first second : CheckpointState} (same : SameState first second)
    (follows : StateFollows book first) : StateFollows book second := by
  intro token listed found isFound account kept
  have related := same.tokens token
  rw [isFound] at related
  cases isFirst : first.tokens[token]? with
  | none =>
      rw [isFirst] at related
      cases related
  | some original =>
      rw [isFirst] at related
      cases related with
      | some sameToken => exact sameToken.follows (follows token listed original isFirst account kept)

/-- What is in the file follows the books. -/
theorem Committed.follows (serves : ServesBook client abi book)
    (committed : Committed client abi book stored) : ∀ checkpoint, stored = some checkpoint →
      ∀ state, parseState checkpoint = .ok state → StateFollows book state := by
  induction committed with
  | nothing => simp
  | commit earlier answers inWord listed ratesInWord opened written ih =>
      intro checkpoint isCheckpoint state read
      cases isCheckpoint
      obtain ⟨_, -, written⟩ := (bind_ok_iff _ _ _).mp written
      cases (pure_ok_iff _ _).mp written
      have isOpened := (ends_openSource_follows serves answers inWord listed ih).ok_value opened
      have persistable := (ends_openSource _ _ _ _ ratesInWord inWord).ok_value opened
      obtain ⟨loaded, reads, same⟩ := parseState_serializeState persistable
      cases reads.symm.trans read
      exact same.follows isOpened.follows

end Committing

/-! ## The score of a source -/

section Scores

variable {σ : Type} {client : RpcClient σ} {abi : AbiLibrary} {chain : LogChain}
  {book : ScoredBook chain} {scored : ScoredToken} {account : Address}
  {history : Erc20History chain scored.token} {asOfBlock : Nat} {scoredTokens : List ScoredToken}
  {source : CheckpointScoreSource}

theorem firstContributingBlock_none (idle : firstContributingBlock scored asOfBlock = none)
    {segment : RatePoint × Option Nat} (member : segment ∈ segments scored.rates) :
    segment.1.rate = 0 ∨ overlapTo segment.2 asOfBlock ≤ segment.1.fromBlock := by
  unfold firstContributingBlock at idle
  have passed := List.findSome?_eq_none_iff.mp idle segment member
  dsimp only at passed
  rw [min_getD_eq_overlapTo] at passed
  by_contra pays
  rw [not_or, Nat.not_le] at pays
  simp [pays.1, pays.2] at passed

theorem bookNumerator_idle (idle : contributesAt scored asOfBlock = false) :
    bookNumerator account asOfBlock scored history = 0 := by
  have none : firstContributingBlock scored asOfBlock = none := by
    simpa [contributesAt] using idle
  apply List.sum_eq_zero
  intro part isPart
  obtain ⟨segment, member, rfl⟩ := List.mem_map.mp isPart
  rcases firstContributingBlock_none none member with noRate | empty
  · simp [segmentNumerator, noRate]
  · simp [segmentNumerator, segmentIntegral, Finset.Ico_eq_empty_of_le empty]

/-- The balance of the book at the block shows that the replay has gone along with the book. -/
theorem ReplayedTo.numerator {token : TokenState} (replayed : ReplayedTo asOfBlock scored token)
    (follows : Follows history account 0 0 token) (kept : account ≠ .zero)
    (valid : history.ledger.Valid chain) (actual : (entryOf token.accounts account).balance =
      history.ledger.bookAt chain asOfBlock account) {numerator : Nat}
    (run : projectedNumerator (entryOf token.accounts account) asOfBlock scored.rates
      scored.decimals = .ok numerator) :
    numerator = bookNumerator account asOfBlock scored history := by
  obtain ⟨rfl, decimals, known, ascending⟩ := replayed
  have projects := follows.projects kept ascending known
  rw [decimals] at projects
  rw [Except.ok.inj (run.symm.trans projects)]
  refine expectedNumerator_congr fun block early => ?_
  exact follows.balanceAt_eq kept valid actual early.le

theorem ends_addNumerator (serves : ServesBook client abi book)
    (opened : OpenedAt book asOfBlock scoredTokens source) (kept : account ≠ .zero)
    (member : scored ∈ scoredTokens) (listed : book.Scored scored.token) (numerator : Nat) :
    Ends (fun result => result = numerator +
        bookNumerator account asOfBlock scored (book.history scored.token listed)) (fun _ => True)
      (source.addNumerator client abi account numerator scored) := by
  unfold CheckpointScoreSource.addNumerator
  rw [opened.block]
  refine ends_ite (fun idle => ends_pure ?_) fun pays => ?_
  · rw [bookNumerator_idle idle, Nat.add_zero]
  · obtain ⟨token, found, replayed⟩ := opened.ready scored member (by simpa using pays)
    have taken : Ends (fun result => result = token) (fun _ => True)
        (liftResult (orRevert source.state.tokens[scored.token]?
          (.invalid s!"missing token {addressHex scored.token}")) :
            Asking σ CheckpointError TokenState) := by
      refine ends_liftResult (fun result run => ?_) fun _ _ => trivial
      exact Option.some.inj (((orRevert_ok_iff _ _ _).mp run).symm.trans found)
    refine taken.bind fun result isToken => ?_
    subst isToken
    have read : Ends (fun actual => actual =
        (book.history scored.token listed).ledger.bookAt chain asOfBlock account)
        (fun _ => True) (mapFailure CheckpointError.history
          (balanceOfAt client abi scored.token account asOfBlock)) :=
      (yields_balanceOfAt serves.standard (serves.valid _ listed)
        (serves.balances _ listed)).mapFailure fun _ _ => trivial
    refine read.bind fun actual isActual => ?_
    have checked : Ends (fun _ => actual = (entryOf result.accounts account).balance)
        (fun _ => True) (liftResult (revertIf (actual ≠ (entryOf result.accounts account).balance)
          (.invalid s!"unsupported token balance semantics for {
            addressHex scored.token}: indexed balance {
            (entryOf result.accounts account).balance}, balanceOf({addressHex account}) at block {
            asOfBlock} is {actual}")) : Asking σ CheckpointError Unit) :=
      ends_liftResult (fun _ run => not_not.mp ((revertIf_ok_iff _ _ _).mp run)) fun _ _ => trivial
    refine checked.bind fun _ same => ?_
    have projected : Ends (fun projected => projected =
        bookNumerator account asOfBlock scored (book.history scored.token listed))
        (fun _ => True) (liftResult ((projectedNumerator (entryOf result.accounts account) asOfBlock
          scored.rates scored.decimals).mapError core) : Asking σ CheckpointError Nat) := by
      refine ends_liftResult (fun projected run => ?_) fun _ _ => trivial
      exact replayed.numerator (opened.follows scored.token listed result found account kept) kept
        (serves.valid _ listed) (same.symm.trans isActual) ((mapError_ok_iff _ _ _).mp run)
    exact projected.bind fun value isValue => ends_pure (congrArg _ isValue)

/-- A source returns the score of the books. -/
theorem ends_grossScoreOf (serves : ServesBook client abi book)
    (opened : OpenedAt book asOfBlock scoredTokens source) (kept : account ≠ .zero)
    (listed : ∀ scored ∈ scoredTokens, book.Scored scored.token) :
    Ends (ScoreIs book account asOfBlock scoredTokens) (fun _ => True)
      (source.grossScoreOf client abi account) := by
  have summed (visited : List ScoredToken) (all : ∀ scored ∈ visited, scored ∈ scoredTokens)
      (numerator : Nat) : Ends (fun result => ∃ numerators,
        List.Forall₂ (ValueOf book (bookNumerator account asOfBlock)) visited numerators ∧
          result = numerator + numerators.sum) (fun _ => True)
        (visited.foldlM (source.addNumerator client abi account) numerator) := by
    induction visited generalizing numerator with
    | nil => exact ends_pure ⟨[], .nil, rfl⟩
    | cons scored rest ih =>
        rw [List.foldlM_cons]
        have member := all scored List.mem_cons_self
        have isListed := listed scored member
        refine (ends_addNumerator serves opened kept member isListed numerator).bind
          fun middle isMiddle => ?_
        refine (ih (fun other later => all other (List.mem_cons_of_mem _ later)) middle).mono
          (fun result isResult => ?_) fun _ => id
        obtain ⟨numerators, values, isSum⟩ := isResult
        exact ⟨_, .cons ⟨isListed, rfl⟩ values, by
          rw [isSum, isMiddle, List.sum_cons, Nat.add_assoc]⟩
  unfold CheckpointScoreSource.grossScoreOf
  rw [opened.tokens]
  refine (summed scoredTokens (fun _ => id) 0).bind fun numerator isNumerator => ends_pure ?_
  obtain ⟨numerators, values, isSum⟩ := isNumerator
  exact ⟨numerators, values, by rw [isSum, Nat.zero_add]⟩

end Scores

end Usd8Core.Checkpoint
