import Usd8Core.Chain.ChainState
import Usd8Core.ScoreApi.ScoreToBlock

/-!
# Incremental scores

`compute_incremental_score_at` replays two views of an account, the matured one up to the cutoff
and the visible one up to the reference block, each from its own checkpoints.  Whatever
checkpoints earlier calculations left, the score is the one that a calculation from nothing has.
-/

set_option autoImplicit false

namespace Usd8Core.ScoreApi

open Usd8Core.Chain (SettlementParams)
open Usd8Core.Checkpoint (chainId)
open Usd8Core.Engine
open Usd8Core.Lib.ByteWords
open Usd8Core.Lib.CheckedCall
open Usd8Core.Lib.DecimalText
open Usd8Core.Lib.OracleCall
open Usd8Core.Score

def CHECKPOINT_SCHEMA_VERSION : Nat := 3

structure ScoreNetwork where
  chainId : Nat
  name : String

structure UserCheckpoint where
  schemaVersion : Nat
  chainId : String
  registry : String
  account : String
  tokens : List TokenCheckpoint
  visibleTokens : List TokenCheckpoint

structure TokenScoreSnapshot where
  token : String
  balance : String
  grossEarnedScore : String
  grossScorePerSecond : String

/-- The fields of a snapshot that the requests do not look at. -/
structure ScoreContent where
  network : String
  chainId : String
  registry : String
  account : String
  referenceBlockHash : Hash
  scoreCutoffBlock : String
  scoreCutoffBlockHash : Hash
  minHoldingRequired : String
  snapshotTimestamp : String
  grossEarnedScore : String
  maturedGrossEarnedScore : String
  scoreSpent : String
  availableScore : String
  grossScorePerSecond : String
  maturingScorePerSecond : String
  tokenScores : List TokenScoreSnapshot
  scoredTokens : List String

structure ScoreBreakdown where
  grossEarnedScore : Nat
  maturedGrossEarnedScore : Nat
  availableScore : Nat

def scoreBreakdown (referenceNumerator maturedNumerator spent : Nat) : ScoreBreakdown where
  grossEarnedScore := grossScore referenceNumerator
  maturedGrossEarnedScore := grossScore maturedNumerator
  availableScore :=
    if grossScore maturedNumerator > spent then grossScore maturedNumerator - spent else 0

/-- The last token gets what the floors leave of the total. -/
def addToLast (scores : List Nat) (rest : Nat) : List Nat :=
  match scores.getLast? with
  | none => []
  | some last => scores.dropLast ++ [last + rest]

def allocateTokenScores (numerators : List Nat) : List Nat :=
  let total := grossScore numerators.sum
  let scores := numerators.map grossScore
  addToLast scores (total - scores.sum)

def scoreCutoffBlock (referenceBlock minHoldingRequired : Nat) : Nat :=
  if referenceBlock > minHoldingRequired then referenceBlock - minHoldingRequired else 1

/-! ## Values per token -/

/-- A value for each token: zero where it has no checkpoint. -/
def perToken (read : TokenCheckpoint → Checkpoint.ScoredToken → Incremental Nat)
    (checkpoints : List TokenCheckpoint) (scoredTokens : List Checkpoint.ScoredToken) :
    Incremental (List Nat) :=
  scoredTokens.mapM fun scored =>
    match checkpoints.find? fun checkpoint => checkpoint.token == addressHex scored.token with
    | none => pure 0
    | some checkpoint => read checkpoint scored

def tokenNumerators (checkpoints : List TokenCheckpoint) (scoredTokens : List Checkpoint.ScoredToken)
    (targetBlock : Nat) : Incremental (List Nat) :=
  perToken (fun checkpoint scored => tokenNumerator checkpoint scored targetBlock) checkpoints
    scoredTokens

def liveScoreRates (checkpoints : List TokenCheckpoint) (scoredTokens : List Checkpoint.ScoredToken)
    (targetBlock : Nat) : Incremental (List Nat) :=
  perToken (fun checkpoint scored => liveScorePerSecond checkpoint scored targetBlock) checkpoints
    scoredTokens

def tokenBalances (checkpoints : List TokenCheckpoint) (scoredTokens : List Checkpoint.ScoredToken) :
    Incremental (List Nat) :=
  perToken (fun checkpoint _ => checkpointBalance checkpoint) checkpoints scoredTokens

/-! ## Configuration -/

structure ScoreConfig where
  params : SettlementParams
  scoredTokens : List Checkpoint.ScoredToken

/-- What `score_config_and_spent_at` reads in its first request. -/
structure ScoreState where
  params : SettlementParams
  scoredTokens : List Address
  scoreSpent : Nat

/-- The contract reads of the configuration, decoded by the ABI library. -/
structure ScoreReads (σ : Type) where
  defiInsuranceAt (registry : Address) (block : Nat) : Reading σ Address
  scoreStateAt (registry defiInsurance account : Address) (block : Nat) : Reading σ ScoreState
  rateHistoriesAt (registry : Address) (tokens : List Address) (block : Nat) :
    Reading σ (List (List RatePoint))
  decimalsAt (token : Address) (block : Nat) : Reading σ Nat

/-- The points of one history, each above the one before. -/
def checkAscending (token : Address) (rates : List RatePoint) : Except HistoryError Unit :=
  revertIf (¬ Ascending rates) (.invalidConfiguration
    s!"rate history for {addressHex token} is not strictly ascending")

section Config

variable {σ : Type} (reads : ScoreReads σ)

/-- The loop over the tokens; `seen` is the hash set of the tokens before. -/
def scoredTokensFrom (block : Nat) (seen : List Address) :
    List (Address × List RatePoint) → Reading σ (List Checkpoint.ScoredToken)
  | [] => pure []
  | (token, rates) :: rest => do
      liftResult (revertIf (token ∈ seen)
        (.invalidConfiguration s!"duplicate scored token {addressHex token}"))
      liftResult (revertIf (rates = [])
        (.invalidConfiguration s!"scored token {addressHex token} has no rate history"))
      liftResult (checkAscending token rates)
      let decimals ← reads.decimalsAt token block
      let tokens ← scoredTokensFrom block (token :: seen) rest
      pure (⟨token, decimals, rates⟩ :: tokens)

def completeScoreConfig (registry : Address) (block : Nat) (params : SettlementParams)
    (tokens : List Address) : Reading σ ScoreConfig := do
  liftResult (revertIf (params.sampleStepBlocks = 0)
    (.invalidConfiguration "sampleStepBlocks is zero"))
  let histories ← reads.rateHistoriesAt registry tokens block
  let scoredTokens ← scoredTokensFrom reads block [] (tokens.zip histories)
  pure ⟨params, scoredTokens⟩

def scoreConfigAndSpentAt (registry defiInsurance account : Address) (block : Nat) :
    Reading σ (ScoreConfig × Nat) := do
  let state ← reads.scoreStateAt registry defiInsurance account block
  let config ← completeScoreConfig reads registry block state.params state.scoredTokens
  pure (config, state.scoreSpent)

end Config

/-! ## The calculation -/

def validateUserCheckpoint (checkpoint : UserCheckpoint) (network : ScoreNetwork)
    (registry account : Address) : Incremental Unit :=
  revertIf (checkpoint.schemaVersion ≠ CHECKPOINT_SCHEMA_VERSION ∨
    checkpoint.chainId ≠ decimalText network.chainId ∨
    checkpoint.registry ≠ addressHex registry ∨ checkpoint.account ≠ addressHex account)
    .checkpointIdentity

/-- Refused where the block has another hash than the one that the calculation began with. -/
def checkAnchor {σ : Type} (client : RpcClient σ) (name : String) (block : Nat) (hash : Hash) :
    Asking σ ComputeError Unit := do
  let final ← mapFailure .anchor (blockByNumber client block)
  liftResult (revertIf (final.hash ≠ hash) (.anchorChanged name block hash final.hash))

def cacheStatus (missed advanced : Bool) : String :=
  if missed then "miss" else if advanced then "advanced" else "hit"

/-- The figures of one token, in texts. -/
def tokenScoreSnapshots : List Checkpoint.ScoredToken → List Nat → List Nat → List Nat →
    List TokenScoreSnapshot
  | token :: tokens, score :: scores, rate :: rates, balance :: balances =>
      ⟨addressHex token.token, decimalText balance, decimalText score, decimalText rate⟩ ::
        tokenScoreSnapshots tokens scores rates balances
  | _, _, _, _ => []

section Compute

variable {σ : Type} (client : RpcClient σ) (abi : AbiLibrary) (reads : ScoreReads σ)
  (network : ScoreNetwork) (registry account : Address)

def computeIncrementalScoreAt (reference : BlockAnchor) (previous : Option UserCheckpoint) :
    Asking σ ComputeError (CachedInsuranceScoreSnapshot ScoreContent × UserCheckpoint) := do
  let actualChain ← mapFailure .anchor (chainId client)
  incremental (revertIf (actualChain ≠ network.chainId)
    (.wrongChain actualChain network.chainId))
  incremental (previous.elim (pure ()) fun checkpoint =>
    validateUserCheckpoint checkpoint network registry account)
  let defiInsurance ← mapFailure .history (reads.defiInsuranceAt registry reference.number)
  incremental (revertIf (defiInsurance = .zero) .zeroDefiInsurance)
  let (config, spent) ← mapFailure .history
    (scoreConfigAndSpentAt reads registry defiInsurance account reference.number)
  let cutoff := scoreCutoffBlock reference.number config.params.minHoldingRequired
  let cutoffAnchor ← mapFailure .anchor (blockByNumber client cutoff)
  let matured ← scoreToBlock client abi account config.scoredTokens
    (previous.elim [] UserCheckpoint.tokens) cutoff (hashHex cutoffAnchor.hash)
  -- a first calculation goes on from the cutoff
  let visible ← scoreToBlock client abi account config.scoredTokens
    (previous.elim matured.nextTokens UserCheckpoint.visibleTokens) reference.number
    (hashHex reference.hash)
  let metrics := mergeLogMetrics matured.metrics visible.metrics
  let score := scoreBreakdown visible.numerator matured.numerator spent
  let visibleNumerators ← incremental
    (tokenNumerators visible.nextTokens config.scoredTokens reference.number)
  let visibleScores := allocateTokenScores visibleNumerators
  let visibleRates ← incremental
    (liveScoreRates visible.nextTokens config.scoredTokens reference.number)
  let visibleBalances ← incremental (tokenBalances visible.nextTokens config.scoredTokens)
  let maturedRates ← incremental (liveScoreRates matured.nextTokens config.scoredTokens cutoff)
  checkAnchor client "score cutoff" cutoff cutoffAnchor.hash
  checkAnchor client "score reference" reference.number reference.hash
  pure (
    { snapshotVersion := SCORE_SNAPSHOT_VERSION
      referenceBlock := decimalText reference.number
      logRequests := decimalText metrics.requests
      cacheStatus := cacheStatus (matured.missed || visible.missed)
        (matured.advanced || visible.advanced)
      content :=
        { network := network.name
          chainId := decimalText network.chainId
          registry := addressHex registry
          account := addressHex account
          referenceBlockHash := reference.hash
          scoreCutoffBlock := decimalText cutoff
          scoreCutoffBlockHash := cutoffAnchor.hash
          minHoldingRequired := decimalText config.params.minHoldingRequired
          snapshotTimestamp := decimalText reference.timestamp
          grossEarnedScore := decimalText score.grossEarnedScore
          maturedGrossEarnedScore := decimalText score.maturedGrossEarnedScore
          scoreSpent := decimalText spent
          availableScore := decimalText score.availableScore
          grossScorePerSecond := decimalText visibleRates.sum
          maturingScorePerSecond := decimalText maturedRates.sum
          tokenScores := tokenScoreSnapshots config.scoredTokens visibleScores visibleRates
            visibleBalances
          scoredTokens := config.scoredTokens.map fun token => addressHex token.token } },
    { schemaVersion := CHECKPOINT_SCHEMA_VERSION
      chainId := decimalText network.chainId
      registry := addressHex registry
      account := addressHex account
      tokens := matured.nextTokens
      visibleTokens := visible.nextTokens })

def computeIncrementalScore (previous : Option UserCheckpoint) :
    Asking σ ComputeError (CachedInsuranceScoreSnapshot ScoreContent × UserCheckpoint) := do
  let reference ← mapFailure .anchor (finalizedBlock client)
  computeIncrementalScoreAt client abi reads network registry account reference previous

end Compute

end Usd8Core.ScoreApi
