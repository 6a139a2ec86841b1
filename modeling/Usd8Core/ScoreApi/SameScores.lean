import Usd8Core.Checkpoint.BulkScores
import Usd8Core.ScoreApi.ScoreAgreement

/-!
# One score

Four implementations calculate a gross score: from archive reads, from a replay of the claimants,
from a checkpoint of all accounts and from the checkpoints of one account.  Whenever they return,
they return the sum over the rate segments of what the account held.
-/

set_option autoImplicit false

namespace Usd8Core.ScoreApi

open Std
open Usd8Core.Checkpoint (Committed ScoreIs ScoredBook ServesBook ValueOf bookNumerator
  earnedScoreOf ends_grossScoreOf ends_openBulkSource ends_openSource_follows openBulkSource
  openSource transfersBetween yields_earnedScoreOf)
open Usd8Core.Engine
open Usd8Core.Lib.BalanceHistory
open Usd8Core.Lib.ByteWords
open Usd8Core.Lib.CheckedCall
open Usd8Core.Lib.OracleCall
open Usd8Core.Score (Ascending RatePoint balanceAt expectedNumerator expectedNumerator_from
  grossScore mem_of_segment overlapTo overlapTo_le segments)

/-! ## What an account held, by its transfers and by the book -/

section Holdings

variable {chain : LogChain} {scored : Checkpoint.ScoredToken} {account : Address}
  {history : Erc20History chain scored.token} {start targetBlock : Nat}

/-- A log that brings something in or takes something out. -/
def Moves {chain : LogChain} {token : Address} (history : Erc20History chain token)
    (account : Address) (log : RpcLog) : Bool :=
  decide (inflowOf account (history.tokenTransfer log) ≠ 0 ∨
    outflowOf account (history.tokenTransfer log) ≠ 0)

theorem inflowOf_eq (history : Erc20History chain scored.token) (log : RpcLog) :
    inflowOf account (history.tokenTransfer log) = inflow account (history.ledger.moves log) := by
  by_cases received : (history.transfer log).recipient = account <;>
    simp [inflowOf, inflow, Erc20History.tokenTransfer, Erc20History.ledger, received]

theorem outflowOf_eq (history : Erc20History chain scored.token) (log : RpcLog) :
    outflowOf account (history.tokenTransfer log) = outflow account (history.ledger.moves log) := by
  by_cases sent : (history.transfer log).sender = account <;>
    simp [outflowOf, outflow, Erc20History.tokenTransfer, Erc20History.ledger, sent]

theorem moves_mirrors (history : Erc20History chain scored.token) (kept : account ≠ .zero) :
    Mirrors history.ledger account (netOps history.ledger account (Moves history account)) := by
  refine netOps_mirrors kept _ fun log idle => ?_
  have nothing := not_or.mp (of_decide_eq_false idle)
  rw [inflowOf_eq, outflowOf_eq, not_not, not_not] at nothing
  rw [nothing.1, nothing.2]

theorem transferOps_eq (history : Erc20History chain scored.token) (fromBlock toBlock : Nat) :
    transferOps account (transfersBetween history fromBlock toBlock) =
      windowOps history.ledger chain (netOps history.ledger account (Moves history account))
        fromBlock toBlock := by
  rw [transfersBetween, windowOps]
  generalize chain.between history.ledger.emits fromBlock (toBlock + 1 - fromBlock) = logs
  induction logs with
  | nil => rfl
  | cons log rest ih =>
      rw [List.flatMap_cons, ← ih, List.map_cons, transferOps, transferOps, List.filter_cons,
        netOps, ← inflowOf_eq, ← outflowOf_eq]
      by_cases moves : inflowOf account (history.tokenTransfer log) ≠ 0 ∨
          outflowOf account (history.tokenTransfer log) ≠ 0
      · rw [if_pos (decide_eq_true moves), if_pos (by simpa [Moves] using moves)]
        rfl
      · rw [if_neg (by simpa using moves), if_neg (by simpa [Moves] using moves)]
        rfl

theorem holding_eq (kept : account ≠ .zero) (valid : history.ledger.Valid chain) {block : Nat}
    (begun : start ≤ block) :
    holding history account start block = history.ledger.bookAt chain block account := by
  rw [holding, transferOps_eq]
  exact (moves_mirrors history kept).balanceAt_eq valid begun (Nat.le_refl _)

/-- No point that pays begins before the first one. -/
theorem PaysFrom.first {rates : List RatePoint} (ascending : Ascending rates)
    (pays : PaysFrom rates start) : ∀ point ∈ rates, point.rate ≠ 0 → start ≤ point.fromBlock := by
  unfold PaysFrom at pays
  induction rates with
  | nil => simp
  | cons point rest ih =>
      by_cases idle : point.rate = 0
      · simp only [List.find?_cons, idle, ne_eq, not_true_eq_false, decide_false] at pays
        intro other member some
        rcases List.mem_cons.mp member with rfl | later
        · exact absurd idle some
        · exact ih ascending.tail pays other later some
      · simp only [List.find?_cons, idle, ne_eq, not_false_eq_true, decide_true, Option.map_some,
          Option.some.injEq] at pays
        intro other member _
        rcases List.mem_cons.mp member with rfl | later
        · exact pays.ge
        · exact pays ▸ (ascending.head_lt other later).le

/-- Where no token point contributes, nothing is scored. -/
theorem bookNumerator_none (idle : firstContributingBlock scored targetBlock = none) :
    bookNumerator account targetBlock scored history = 0 := by
  have none := List.find?_eq_none.mp (Option.map_eq_none_iff.mp idle)
  apply List.sum_eq_zero
  intro part isPart
  obtain ⟨segment, member, rfl⟩ := List.mem_map.mp isPart
  have inside := overlapTo_le segment.2 targetBlock
  have late := none segment.1 (mem_of_segment member)
  by_cases noRate : segment.1.rate = 0
  · simp [Score.segmentNumerator, noRate]
  · have empty : targetBlock ≤ segment.1.fromBlock := by simpa [noRate] using late
    simp [Score.segmentNumerator, Score.segmentIntegral_before empty]

theorem expectedScore_eq (kept : account ≠ .zero) (valid : history.ledger.Valid chain)
    (ascending : Ascending scored.rates) :
    expectedScore scored history account targetBlock =
      bookNumerator account targetBlock scored history := by
  unfold expectedScore
  cases first : firstContributingBlock scored targetBlock with
  | none => exact (bookNumerator_none first).symm
  | some start =>
      have pays := (firstContributingBlock_pays ascending first).1
      have late : ∀ segment ∈ segments scored.rates, segment.1.rate ≠ 0 →
          segment.1.fromBlock < overlapTo segment.2 targetBlock → start ≤ segment.1.fromBlock :=
        fun segment member some _ => pays.first ascending segment.1 (mem_of_segment member) some
      refine expectedNumerator_from late ?_
      intro block reached _
      rw [heldFrom, if_neg (Nat.not_lt.mpr reached), holding_eq kept valid reached]

end Holdings

/-! ## Four implementations -/

/-- Checkpoints that earlier replays left, each going on from those before. -/
inductive Replayed {σ : Type} (client : RpcClient σ) (abi : AbiLibrary) {chain : LogChain}
    (book : ScoredBook chain) (account : Address) : List TokenCheckpoint → Prop
  | nothing : Replayed client abi book account []
  | next {previous : List TokenCheckpoint} {scoredTokens : List Checkpoint.ScoredToken} {targetBlock : Nat}
      {targetBlockHash : String} {start : σ} {replay : ScoreReplay}
      (earlier : Replayed client abi book account previous)
      (listed : ∀ scored ∈ scoredTokens, book.Scored scored.token)
      (ascending : ∀ scored ∈ scoredTokens, Ascending scored.rates)
      (inWord : targetBlock ≤ maxU64)
      (run : (runFrom (scoreToBlock client abi account scoredTokens previous targetBlock
        targetBlockHash) start).1 = .ok replay) :
      Replayed client abi book account replay.nextTokens

section Agreement

variable {σ : Type} {client : RpcClient σ} {abi : AbiLibrary} {chain : LogChain}
  {book : ScoredBook chain} {account : Address} {asOfBlock : Nat}
  {scoredTokens : List Checkpoint.ScoredToken}

theorem Replayed.follows {previous : List TokenCheckpoint}
    (serves : ServesHistories client abi book)
    (replayed : Replayed client abi book account previous) :
    BookFollow book account previous := by
  induction replayed with
  | nothing => exact bookFollow_nil
  | next earlier listed ascending inWord run ih =>
      obtain ⟨replays, each, tokens, -⟩ :=
        (computes_scoreToBlock serves listed ascending inWord ih).ok_value run
      rw [tokens]
      exact bookFollow_of_scored each

theorem scoreIs_exists (listed : ∀ scored ∈ scoredTokens, book.Scored scored.token) :
    ∃ score, ScoreIs book account asOfBlock scoredTokens score := by
  suffices all : ∃ numerators, List.Forall₂ (ValueOf book (bookNumerator account asOfBlock))
      scoredTokens numerators by
    obtain ⟨numerators, values⟩ := all
    exact ⟨_, numerators, values, rfl⟩
  induction scoredTokens with
  | nil => exact ⟨[], .nil⟩
  | cons scored rest ih =>
      obtain ⟨numerators, values⟩ :=
        ih fun other member => listed other (List.mem_cons_of_mem _ member)
      exact ⟨_, .cons ⟨listed scored List.mem_cons_self, rfl⟩ values⟩

theorem computes_scoreIs {previous : List TokenCheckpoint} {targetBlockHash : String}
    (serves : ServesHistories client abi book) (kept : account ≠ .zero)
    (inWord : asOfBlock ≤ maxU64) (listed : ∀ scored ∈ scoredTokens, book.Scored scored.token)
    (ascending : ∀ scored ∈ scoredTokens, Ascending scored.rates)
    (follow : BookFollow book account previous) :
    Computes (fun replay => ScoreIs book account asOfBlock scoredTokens
        (grossScore replay.numerator))
      (scoreToBlock client abi account scoredTokens previous asOfBlock targetBlockHash) := by
  refine (computes_scoreToBlock serves listed ascending inWord follow).mono
    (fun replay isReplay => ?_) fun _ => id
  obtain ⟨replays, each, -, numerator⟩ := isReplay
  refine ⟨replays.map TokenReplay.numerator, ?_, by rw [numerator]⟩
  rw [List.forall₂_map_right_iff]
  refine ((List.forall₂_and_left _ _).mpr ⟨fun _ => id, each⟩).imp fun scored replay both => ?_
  obtain ⟨member, isListed, -, isNumerator⟩ := both
  exact ⟨isListed, isNumerator.trans
    (expectedScore_eq kept (serves.valid _ isListed) (ascending scored member))⟩

/-- For every account but the zero address there is one score, and each of the implementations
returns it whenever it returns: the archive reads, a replay of any claimants, a source on whatever
earlier sources committed and a replay from whatever earlier replays left. -/
theorem scores_agree (serves : ServesHistories client abi book) (kept : account ≠ .zero)
    (inWord : asOfBlock ≤ maxU64) (listed : ∀ scored ∈ scoredTokens, book.Scored scored.token)
    (ascending : ∀ scored ∈ scoredTokens, Ascending scored.rates) :
    ∃ score, ScoreIs book account asOfBlock scoredTokens score ∧
      (∀ maxRange resultCap start result,
        (∀ filter, AnswersCanonically client chain filter resultCap) →
        (runFrom (earnedScoreOf client abi account asOfBlock maxRange resultCap scoredTokens)
          start).1 = .ok result → result.1 = score) ∧
      (∀ fuel maxRange resultCap trackedAccounts expectedChainId start source found,
        (∀ filter, AnswersCanonically client chain filter resultCap) →
        (runFrom (openBulkSource client abi asOfBlock fuel maxRange resultCap trackedAccounts
          scoredTokens expectedChainId) start).1 = .ok source →
        source.grossScoreOf account = .ok found → found = score) ∧
      (∀ stored, Committed client abi book stored →
        ∀ fuel maxRange resultCap expectedChainId integrityKey start later source found,
        (∀ filter, AnswersCanonically client chain filter resultCap) →
        (runFrom (openSource client abi asOfBlock fuel maxRange resultCap stored scoredTokens
          expectedChainId integrityKey) start).1 = .ok source →
        (runFrom (source.grossScoreOf client abi account) later).1 = .ok found → found = score) ∧
      ∀ previous, Replayed client abi book account previous →
        ∀ targetBlockHash start replay,
        (runFrom (scoreToBlock client abi account scoredTokens previous asOfBlock targetBlockHash)
          start).1 = .ok replay → grossScore replay.numerator = score := by
  obtain ⟨score, isScore⟩ := scoreIs_exists listed
  refine ⟨score, isScore, ?_, ?_, ?_, ?_⟩
  · intro maxRange resultCap start result answers run
    exact ((yields_earnedScoreOf serves.toServesBook answers kept inWord listed).ok_value
      run).unique isScore
  · intro fuel maxRange resultCap trackedAccounts expectedChainId start source found answers opened
      run
    have isOpened := (ends_openBulkSource serves.toServesBook answers inWord listed).ok_value opened
    exact (isOpened.grossScoreOf_ok serves.toServesBook kept listed run).unique isScore
  · intro stored committed fuel maxRange resultCap expectedChainId integrityKey start later source
      found answers opened run
    have isOpened := (ends_openSource_follows serves.toServesBook answers inWord listed
      (committed.follows serves.toServesBook)).ok_value opened
    exact ((ends_grossScoreOf serves.toServesBook isOpened kept listed).ok_value run).unique isScore
  · intro previous replayed targetBlockHash start replay run
    exact ((computes_scoreIs serves kept inWord listed ascending
      (replayed.follows serves)).ok_value run).unique isScore

end Agreement

namespace SmallScores

open Usd8Core.Engine.SmallHistory (alice alice_ne_zero abi token)

def scored : Checkpoint.ScoredToken := ⟨token, 18, [⟨1, 5 * 10 ^ 18⟩]⟩

def claimants : AccountSet := TreeSet.ofList [alice] compareAddress

def integrityKey : List Byte := List.replicate 32 0

def archiveScore : Option Nat :=
  (runFrom (earnedScoreOf client abi alice 5 5000 1000 [scored]) ()).1.toOption.map Prod.fst

def bulkScore : Option Nat := do
  let source ←
    (runFrom (openBulkSource client abi 5 9 5000 1000 claimants [scored] 1) ()).1.toOption
  (source.grossScoreOf alice).toOption

def committed : Option Checkpoint.PersistedCheckpoint := do
  let source ←
    (runFrom (openSource client abi 3 9 5000 1000 none [scored] 1 integrityKey) ()).1.toOption
  (source.commit integrityKey).toOption

/-- The score of a source that goes on from a commit at block 3. -/
def checkpointScore : Option Nat := do
  let persisted ← committed
  let source ← (runFrom (openSource client abi 5 9 5000 1000 (some persisted) [scored] 1
    integrityKey) ()).1.toOption
  (runFrom (source.grossScoreOf client abi alice) ()).1.toOption

def replayTo (number : Nat) (previous : List TokenCheckpoint) : Option ScoreReplay :=
  (runFrom (scoreToBlock client abi alice [scored] previous number (hashHex Hash.zero))
    ()).1.toOption

def replayedScore : Option Nat := do
  let first ← replayTo 3 []
  let second ← replayTo 5 first.nextTokens
  pure (grossScore second.numerator)

/-- Each of the four goes through, and what eight tokens earn over three blocks is its score. -/
theorem small_scores_agree : archiveScore = some 120 ∧ bulkScore = some 120 ∧
    checkpointScore = some 120 ∧ replayedScore = some 120 := by
  have archive : archiveScore = some 120 := by decide +kernel
  have bulkReturns : bulkScore.isSome = true := by decide +kernel
  have checkpointReturns : checkpointScore.isSome = true := by decide +kernel
  have replayReturns : replayedScore.isSome = true := by decide +kernel
  have listed : ∀ other ∈ [scored], book.Scored other.token := by
    intro other member
    rw [List.mem_singleton.mp member]
    rfl
  have ascending : ∀ other ∈ [scored], Ascending other.rates := by
    intro other member
    rw [List.mem_singleton.mp member]
    exact List.isChain_singleton _
  have ratesInWord : ∀ other ∈ [scored], ∀ point ∈ other.rates, point.fromBlock ≤ maxU64 := by
    simp [scored, maxU64]
  have answers : ∀ filter, AnswersCanonically client chain filter 1000 :=
    fun filter => answersCanonically filter 1000
  have inWord (block : Nat) (small : block < 10) : block ≤ maxU64 := by
    norm_num [maxU64]
    omega
  obtain ⟨score, -, archived, bulk, resumed, replayed⟩ :=
    scores_agree serves alice_ne_zero (inWord 5 (by omega)) listed ascending
  obtain rfl : score = 120 := by
    rw [archiveScore] at archive
    obtain ⟨result, run, isScore⟩ := Option.map_eq_some_iff.mp archive
    exact (archived _ _ _ _ answers (ok_of_toOption run)).symm.trans isScore
  refine ⟨archive, ?_, ?_, ?_⟩
  · obtain ⟨found, returned⟩ := Option.isSome_iff_exists.mp bulkReturns
    rw [returned]
    rw [bulkScore] at returned
    obtain ⟨source, openRun, scoreRun⟩ := Option.bind_eq_some_iff.mp returned
    rw [bulk _ _ _ _ _ _ _ _ answers (ok_of_toOption openRun) (ok_of_toOption scoreRun)]
  · obtain ⟨found, returned⟩ := Option.isSome_iff_exists.mp checkpointReturns
    rw [returned]
    rw [checkpointScore] at returned
    obtain ⟨persisted, commitRun, returned⟩ := Option.bind_eq_some_iff.mp returned
    obtain ⟨source, openRun, scoreRun⟩ := Option.bind_eq_some_iff.mp returned
    rw [committed] at commitRun
    obtain ⟨first, firstRun, writeRun⟩ := Option.bind_eq_some_iff.mp commitRun
    have stored : Committed client abi book (some persisted) :=
      .commit .nothing answers (inWord 3 (by omega)) listed ratesInWord (ok_of_toOption firstRun)
        (ok_of_toOption writeRun)
    rw [resumed _ stored _ _ _ _ _ _ _ _ _ answers (ok_of_toOption openRun)
      (ok_of_toOption scoreRun)]
  · obtain ⟨found, returned⟩ := Option.isSome_iff_exists.mp replayReturns
    rw [returned]
    rw [replayedScore] at returned
    obtain ⟨first, firstRun, returned⟩ := Option.bind_eq_some_iff.mp returned
    obtain ⟨second, secondRun, returned⟩ := Option.bind_eq_some_iff.mp returned
    rw [replayTo] at firstRun secondRun
    have left : Replayed client abi book alice first.nextTokens :=
      .next .nothing listed ascending (inWord 3 (by omega)) (ok_of_toOption firstRun)
    rw [← replayed _ left _ _ _ (ok_of_toOption secondRun)]
    exact returned.symm

end SmallScores

end Usd8Core.ScoreApi
