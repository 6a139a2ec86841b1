import Usd8Core.ScoreApi.ScoreAgreement

/-!
# Calculations one after the other

Each calculation may go on from the checkpoint of an earlier one.  All of them have the score
that the histories give at their reference block.
-/

set_option autoImplicit false

namespace Usd8Core.ScoreApi

open Usd8Core.Checkpoint (ScoredBook ValueOf valueOf_unique)
open Usd8Core.Engine
open Usd8Core.Lib.ByteWords
open Usd8Core.Lib.CheckedCall
open Usd8Core.Lib.DecimalText
open Usd8Core.Lib.OracleCall
open Usd8Core.Score

/-! ## The configuration -/

/-- What the contracts return at each block. -/
structure ScoreView where
  scoreState : (registry defiInsurance account : Address) → (block : Nat) → ScoreState
  rates : (registry token : Address) → (block : Nat) → List RatePoint
  decimals : (token : Address) → (block : Nat) → Nat
  defiInsurance : (registry : Address) → (block : Nat) → Address

/-- A read that is answered tells what the contract returns at its block. -/
structure ScoreReads.Tells {σ : Type} (reads : ScoreReads σ) (view : ScoreView) : Prop where
  defiInsurance : ∀ registry block,
    Yields (· = view.defiInsurance registry block) (reads.defiInsuranceAt registry block)
  scoreState : ∀ registry defiInsurance account block,
    Yields (· = view.scoreState registry defiInsurance account block)
      (reads.scoreStateAt registry defiInsurance account block)
  rates : ∀ registry tokens block, Yields (· = tokens.map fun token => view.rates registry token block)
    (reads.rateHistoriesAt registry tokens block)
  decimals : ∀ token block, Yields (· = view.decimals token block) (reads.decimalsAt token block)

def ScoreView.scoredToken (view : ScoreView) (registry token : Address) (block : Nat) :
    Checkpoint.ScoredToken :=
  ⟨token, view.decimals token block, view.rates registry token block⟩

def ScoreView.config (view : ScoreView) (registry account : Address) (block : Nat) : ScoreConfig :=
  let state := view.scoreState registry (view.defiInsurance registry block) account block
  ⟨state.params, state.scoredTokens.map (view.scoredToken registry · block)⟩

def ScoreView.spent (view : ScoreView) (registry account : Address) (block : Nat) : Nat :=
  (view.scoreState registry (view.defiInsurance registry block) account block).scoreSpent

/-- A list that a calculation goes on with: no token twice, and rates in order. -/
structure Usable (scoredTokens : List Checkpoint.ScoredToken) : Prop where
  distinct : (scoredTokens.map Checkpoint.ScoredToken.token).Nodup
  ascending : ∀ scored ∈ scoredTokens, Ascending scored.rates

section Config

variable {σ : Type} {reads : ScoreReads σ} {view : ScoreView} {registry account : Address}
  {block : Nat}

theorem yields_scoredTokensFrom (tells : reads.Tells view) (tokens seen : List Address) :
    Yields (fun scoredTokens => scoredTokens = tokens.map (view.scoredToken registry · block) ∧
        tokens.Nodup ∧ (∀ token ∈ tokens, token ∉ seen) ∧
        ∀ scored ∈ scoredTokens, Ascending scored.rates)
      (scoredTokensFrom reads block seen
        (tokens.map fun token => (token, view.rates registry token block))) := by
  induction tokens generalizing seen with
  | nil => exact ends_pure ⟨rfl, .nil, by simp, by simp⟩
  | cons token rest ih =>
      rw [List.map_cons, List.map_cons, scoredTokensFrom]
      refine (yields_result _).bind fun _ unseen => ?_
      refine (yields_result _).bind fun _ _ => ?_
      refine (yields_result _).bind fun _ ordered => ?_
      refine (tells.decimals token block).bind fun decimals isDecimals => ?_
      refine (ih (token :: seen)).bind fun tokens later => ends_pure ?_
      obtain ⟨isTokens, distinct, fresh, ascending⟩ := later
      have notSeen := (revertIf_ok_iff _ _ _).mp unseen
      have inOrder := not_not.mp ((revertIf_ok_iff _ _ _).mp ordered)
      refine ⟨by rw [isTokens, isDecimals]; rfl, List.nodup_cons.mpr ⟨?_, distinct⟩, ?_, ?_⟩
      · exact fun repeated => fresh token repeated List.mem_cons_self
      · intro other member
        rcases List.mem_cons.mp member with rfl | inRest
        · exact notSeen
        · exact fun before => fresh other inRest (List.mem_cons_of_mem _ before)
      · exact List.forall_mem_cons.mpr ⟨inOrder, ascending⟩

theorem yields_completeScoreConfig (tells : reads.Tells view) (state : ScoreState)
    (isState : state = view.scoreState registry (view.defiInsurance registry block) account block) :
    Yields (fun config => config = view.config registry account block ∧
        Usable config.scoredTokens)
      (completeScoreConfig reads registry block state.params state.scoredTokens) := by
  have paired : state.scoredTokens.zip
      (state.scoredTokens.map fun token => view.rates registry token block) =
      state.scoredTokens.map fun token => (token, view.rates registry token block) := by
    simpa using List.zip_map' (f := id) (g := fun token => view.rates registry token block)
      (l := state.scoredTokens)
  refine (yields_result _).bind fun _ _ => ?_
  refine (tells.rates registry _ block).bind fun histories isHistories => ?_
  rw [isHistories, paired]
  refine (yields_scoredTokensFrom tells state.scoredTokens []).bind fun tokens listed => ?_
  obtain ⟨isTokens, distinct, -, ascending⟩ := listed
  refine ends_pure ⟨by rw [isTokens, isState]; rfl, ?_, ascending⟩
  rw [isTokens, List.map_map]
  exact distinct.map fun _ _ same => same

theorem yields_scoreConfigAndSpentAt (tells : reads.Tells view) {defiInsurance : Address}
    (isInsurance : defiInsurance = view.defiInsurance registry block) :
    Yields (fun result => result =
        (view.config registry account block, view.spent registry account block) ∧
        Usable result.1.scoredTokens)
      (scoreConfigAndSpentAt reads registry defiInsurance account block) := by
  subst isInsurance
  refine (tells.scoreState registry _ account block).bind fun state isState => ?_
  refine (yields_completeScoreConfig tells state isState).bind fun config isConfig => ?_
  exact ends_pure ⟨by rw [isConfig.1, isState]; rfl, isConfig.2⟩

end Config

/-! ## One calculation -/

/-- The figures of a snapshot are those that the histories give. -/
structure ScoredAs {chain : LogChain} (book : ScoredBook chain) (account : Address)
    (config : ScoreConfig) (spent reference : Nat) (content : ScoreContent) : Prop where
  figures : ∃ matured visible balances visibleRates maturedRates : List Nat,
    List.Forall₂ (ValueOf book fun scored history => expectedScore scored history account
      (scoreCutoffBlock reference config.params.minHoldingRequired)) config.scoredTokens matured ∧
    List.Forall₂ (ValueOf book fun scored history => expectedScore scored history account reference)
      config.scoredTokens visible ∧
    List.Forall₂ (ValueOf book (expectedBalance account reference)) config.scoredTokens balances ∧
    List.Forall₂ (ValueOf book (expectedRate account reference)) config.scoredTokens visibleRates ∧
    List.Forall₂ (ValueOf book (expectedRate account
      (scoreCutoffBlock reference config.params.minHoldingRequired))) config.scoredTokens
      maturedRates ∧
    content.grossEarnedScore = decimalText (grossScore visible.sum) ∧
    content.maturedGrossEarnedScore = decimalText (grossScore matured.sum) ∧
    content.availableScore =
      decimalText (scoreBreakdown visible.sum matured.sum spent).availableScore ∧
    content.grossScorePerSecond = decimalText visibleRates.sum ∧
    content.maturingScorePerSecond = decimalText maturedRates.sum ∧
    content.tokenScores = tokenScoreSnapshots config.scoredTokens (allocateTokenScores visible)
      visibleRates balances

/-- The checkpoints of both views follow the histories. -/
def UserCheckpoint.Follows {chain : LogChain} (book : ScoredBook chain) (account : Address)
    (checkpoint : UserCheckpoint) : Prop :=
  BookFollow book account checkpoint.tokens ∧ BookFollow book account checkpoint.visibleTokens

section Calculations

variable {σ : Type} {client : RpcClient σ} {abi : AbiLibrary} {reads : ScoreReads σ}
  {chain : LogChain} {book : ScoredBook chain} {view : ScoreView} {network : ScoreNetwork}
  {registry account : Address} {reference : BlockAnchor}

theorem scoreCutoffBlock_le (reference minHoldingRequired : Nat) (inWord : reference ≤ maxU64) :
    scoreCutoffBlock reference minHoldingRequired ≤ maxU64 := by
  unfold scoreCutoffBlock
  split
  · omega
  · decide

/-- A calculation scores the histories, whether or not it goes on from checkpoints that follow
them, and leaves such checkpoints. -/
theorem computes_incrementalScoreAt (serves : ServesHistories client abi book)
    (tells : reads.Tells view)
    (listed : ∀ scored ∈ (view.config registry account reference.number).scoredTokens,
      book.Scored scored.token)
    (inWord : reference.number ≤ maxU64) {previous : Option UserCheckpoint}
    (follow : ∀ checkpoint ∈ previous, checkpoint.Follows book account) :
    Computes (fun result => ScoredAs book account (view.config registry account reference.number)
        (view.spent registry account reference.number) reference.number result.1.content ∧
        result.2.Follows book account)
      (computeIncrementalScoreAt client abi reads network registry account reference previous) := by
  refine ends_true.bind fun actualChain _ => ends_true.bind fun _ _ => ?_
  refine ends_true.bind fun _ _ => ?_
  refine (computes_mapFailure (tells.defiInsurance registry reference.number)).bind
    fun defiInsurance isInsurance => ?_
  refine ends_true.bind fun _ _ => ?_
  refine (computes_mapFailure (yields_scoreConfigAndSpentAt tells isInsurance)).bind
    fun read isRead => ?_
  obtain ⟨rfl, usable⟩ := isRead
  dsimp only at usable ⊢
  generalize view.config registry account reference.number = config at listed usable ⊢
  refine ends_true.bind fun cutoffAnchor _ => ?_
  have followMatured : BookFollow book account (previous.elim [] UserCheckpoint.tokens) := by
    cases previous with
    | none => exact bookFollow_nil
    | some checkpoint => exact (follow checkpoint rfl).1
  refine (computes_scoreToBlock serves listed usable.ascending
    (scoreCutoffBlock_le _ _ inWord) followMatured).bind fun matured isMatured => ?_
  obtain ⟨maturedReplays, maturedEach, maturedTokens, maturedNumerator⟩ := isMatured
  have followVisible : BookFollow book account
      (previous.elim matured.nextTokens UserCheckpoint.visibleTokens) := by
    cases previous with
    | none => exact maturedTokens ▸ bookFollow_of_scored maturedEach
    | some checkpoint => exact (follow checkpoint rfl).2
  refine (computes_scoreToBlock serves listed usable.ascending inWord followVisible).bind
    fun visible isVisible => ?_
  obtain ⟨visibleReplays, visibleEach, visibleTokens, visibleNumerator⟩ := isVisible
  rw [maturedTokens, maturedNumerator, visibleTokens, visibleNumerator]
  refine (computes_incremental _).bind fun numerators isNumerators => ?_
  refine (computes_incremental _).bind fun visibleRates isVisibleRates => ?_
  refine (computes_incremental _).bind fun balances isBalances => ?_
  refine (computes_incremental _).bind fun maturedRates isMaturedRates => ?_
  refine ends_true.bind fun _ _ => ends_true.bind fun _ _ => ends_pure ⟨⟨?_⟩, ?_⟩
  · have isVisible := tokenNumerators_values visibleEach usable.distinct usable.ascending isNumerators
    have sameNumerators := valueOf_unique _ (replays_values visibleEach) isVisible
    refine ⟨maturedReplays.map TokenReplay.numerator, numerators, balances, visibleRates,
      maturedRates, replays_values maturedEach, isVisible,
      tokenBalances_values visibleEach usable.distinct isBalances,
      liveScoreRates_values visibleEach usable.distinct isVisibleRates,
      liveScoreRates_values maturedEach usable.distinct isMaturedRates, ?_, rfl, ?_, rfl, rfl, rfl⟩
    · rw [← sameNumerators]
      rfl
    · rfl
  · exact ⟨bookFollow_of_scored maturedEach, bookFollow_of_scored visibleEach⟩

/-! ## Sequences of calculations -/

/-- A checkpoint that calculations left, the first one from nothing and each other one from the
checkpoint of an earlier one. -/
inductive Produced (client : RpcClient σ) (abi : AbiLibrary) (reads : ScoreReads σ)
    (network : ScoreNetwork) (registry account : Address) : UserCheckpoint → Prop
  | cold {reference : BlockAnchor} {start : σ}
      {snapshot : CachedInsuranceScoreSnapshot ScoreContent} {checkpoint : UserCheckpoint}
      (inWord : reference.number ≤ maxU64)
      (run : (runFrom (computeIncrementalScoreAt client abi reads network registry account reference
        none) start).1 = .ok (snapshot, checkpoint)) :
      Produced client abi reads network registry account checkpoint
  | resumed {previous : UserCheckpoint} {reference : BlockAnchor} {start : σ}
      {snapshot : CachedInsuranceScoreSnapshot ScoreContent} {checkpoint : UserCheckpoint}
      (earlier : Produced client abi reads network registry account previous)
      (inWord : reference.number ≤ maxU64)
      (run : (runFrom (computeIncrementalScoreAt client abi reads network registry account reference
        (some previous)) start).1 = .ok (snapshot, checkpoint)) :
      Produced client abi reads network registry account checkpoint

theorem Produced.follows {checkpoint : UserCheckpoint} (serves : ServesHistories client abi book)
    (tells : reads.Tells view)
    (listed : ∀ block, ∀ scored ∈ (view.config registry account block).scoredTokens,
      book.Scored scored.token)
    (produced : Produced client abi reads network registry account checkpoint) :
    checkpoint.Follows book account := by
  induction produced with
  | cold inWord run =>
      exact ((computes_incrementalScoreAt serves tells (listed _) inWord
        (by simp)).ok_value run).2
  | resumed earlier inWord run ih =>
      exact ((computes_incrementalScoreAt serves tells (listed _) inWord
        (by simpa using ih)).ok_value run).2

/-- The figures of a snapshot that do not depend on how it was calculated. -/
def SameFigures (first second : ScoreContent) : Prop :=
  first.grossEarnedScore = second.grossEarnedScore ∧
    first.maturedGrossEarnedScore = second.maturedGrossEarnedScore ∧
    first.availableScore = second.availableScore ∧
    first.grossScorePerSecond = second.grossScorePerSecond ∧
    first.maturingScorePerSecond = second.maturingScorePerSecond ∧
    first.tokenScores = second.tokenScores

/-- The token scores add up to the gross score. -/
def TokensSum (content : ScoreContent) : Prop :=
  ∃ scores : List Nat,
    content.tokenScores.map TokenScoreSnapshot.grossEarnedScore = scores.map decimalText ∧
      content.grossEarnedScore = decimalText scores.sum

theorem ScoredAs.same {config : ScoreConfig} {spent block : Nat} {first second : ScoreContent}
    (isFirst : ScoredAs book account config spent block first)
    (isSecond : ScoredAs book account config spent block second) : SameFigures first second := by
  obtain ⟨matured, visible, balances, visibleRates, maturedRates, isMatured, isVisible, isBalances,
    isVisibleRates, isMaturedRates, gross, maturedGross, available, perSecond, maturing,
    tokens⟩ := isFirst.figures
  obtain ⟨matured', visible', balances', visibleRates', maturedRates', isMatured', isVisible',
    isBalances', isVisibleRates', isMaturedRates', gross', maturedGross', available', perSecond',
    maturing', tokens'⟩ := isSecond.figures
  cases valueOf_unique _ isMatured isMatured'
  cases valueOf_unique _ isVisible isVisible'
  cases valueOf_unique _ isBalances isBalances'
  cases valueOf_unique _ isVisibleRates isVisibleRates'
  cases valueOf_unique _ isMaturedRates isMaturedRates'
  exact ⟨gross.trans gross'.symm, maturedGross.trans maturedGross'.symm,
    available.trans available'.symm, perSecond.trans perSecond'.symm,
    maturing.trans maturing'.symm, tokens.trans tokens'.symm⟩

theorem ScoredAs.tokensSum {config : ScoreConfig} {spent block : Nat} {content : ScoreContent}
    (isContent : ScoredAs book account config spent block content) : TokensSum content := by
  obtain ⟨matured, visible, balances, visibleRates, maturedRates, -, isVisible, isBalances,
    isVisibleRates, -, gross, -, -, -, -, tokens⟩ := isContent.figures
  refine ⟨allocateTokenScores visible, ?_, by rw [gross, allocateTokenScores_sum]⟩
  rw [tokens]
  apply tokenScoreSnapshots_scores
  · rw [allocateTokenScores, addToLast_length, List.length_map]
    exact isVisible.length_eq.symm
  · exact isVisibleRates.length_eq.symm
  · exact isBalances.length_eq.symm

/-- Going on from the checkpoint of earlier calculations, at whatever blocks and with whatever
holding margins and rate histories they were made, gives the figures of a calculation from
nothing, and the scores of the tokens add up to the gross score. -/
theorem incremental_score_is_cold (serves : ServesHistories client abi book)
    (tells : reads.Tells view)
    (listed : ∀ block, ∀ scored ∈ (view.config registry account block).scoredTokens,
      book.Scored scored.token)
    {checkpoint : UserCheckpoint}
    (produced : Produced client abi reads network registry account checkpoint)
    (inWord : reference.number ≤ maxU64) {start coldStart : σ}
    {snapshot cold : CachedInsuranceScoreSnapshot ScoreContent} {next coldNext : UserCheckpoint}
    (run : (runFrom (computeIncrementalScoreAt client abi reads network registry account reference
      (some checkpoint)) start).1 = .ok (snapshot, next))
    (coldRun : (runFrom (computeIncrementalScoreAt client abi reads network registry account
      reference none) coldStart).1 = .ok (cold, coldNext)) :
    SameFigures snapshot.content cold.content ∧ TokensSum snapshot.content ∧
      TokensSum cold.content := by
  have follows := produced.follows serves tells listed
  have resumed := (computes_incrementalScoreAt serves tells (listed _) inWord
    (by simpa using follows)).ok_value run
  have fromNothing := (computes_incrementalScoreAt serves tells (listed _) inWord
    (by simp)).ok_value coldRun
  exact ⟨resumed.1.same fromNothing.1, resumed.1.tokensSum, fromNothing.1.tokensSum⟩

end Calculations

namespace SmallScores

open Usd8Core.Engine.SmallHistory (alice token)

def registry : Address := .ofNat 200

/-- One token, scored from block 1 on, and a margin of one block. -/
def view : ScoreView where
  scoreState _ _ _ _ := ⟨⟨0, 1, 1⟩, [token], 50⟩
  rates _ _ _ := [⟨1, 5 * 10 ^ 18⟩]
  decimals _ _ := 18
  defiInsurance _ _ := .ofNat 201

def reads : ScoreReads Unit where
  defiInsuranceAt registry block := pure (view.defiInsurance registry block)
  scoreStateAt registry defiInsurance account block :=
    pure (view.scoreState registry defiInsurance account block)
  rateHistoriesAt registry tokens block :=
    pure (tokens.map fun token => view.rates registry token block)
  decimalsAt token block := pure (view.decimals token block)

theorem reads_tell : reads.Tells view where
  defiInsurance _ _ := ends_pure rfl
  scoreState _ _ _ _ := ends_pure rfl
  rates _ _ _ := ends_pure rfl
  decimals _ _ := ends_pure rfl

def scoreAt (number : Nat) (previous : Option UserCheckpoint) :
    Except ComputeError (CachedInsuranceScoreSnapshot ScoreContent × UserCheckpoint) :=
  (runFrom (computeIncrementalScoreAt client SmallHistory.abi reads ⟨1, "main"⟩ registry alice
    ⟨number, Hash.zero, 0⟩ previous) ()).1

theorem scoreAt_ok {number : Nat} {previous : Option UserCheckpoint}
    {result : CachedInsuranceScoreSnapshot ScoreContent × UserCheckpoint}
    (scored : (scoreAt number previous).toOption = some result) :
    (runFrom (computeIncrementalScoreAt client SmallHistory.abi reads ⟨1, "main"⟩ registry alice
      ⟨number, Hash.zero, 0⟩ previous) ()).1 = .ok result := by
  have ran := ok_of_toOption scored
  rw [scoreAt] at ran
  exact ran

/-- A calculation at block 3, and two at block 5: one that goes on from it and one that does not. -/
def calculations : Option (UserCheckpoint × CachedInsuranceScoreSnapshot ScoreContent ×
    CachedInsuranceScoreSnapshot ScoreContent) := do
  let first ← (scoreAt 3 none).toOption
  let resumed ← (scoreAt 5 (some first.2)).toOption
  let cold ← (scoreAt 5 none).toOption
  pure (first.2, resumed.1, cold.1)

/-- Alice has held 8 over the three blocks before the reference. -/
theorem resumed_is_cold : ∃ checkpoint resumed cold,
    calculations = some (checkpoint, resumed, cold) ∧ resumed.cacheStatus = "advanced" ∧
      cold.cacheStatus = "miss" ∧ cold.content.grossEarnedScore = "120" ∧
      cold.content.availableScore = "30" ∧ SameFigures resumed.content cold.content := by
  have figures : (calculations.map fun (_, resumed, cold) => (resumed.cacheStatus, cold.cacheStatus,
      cold.content.grossEarnedScore, cold.content.availableScore)) =
        some ("advanced", "miss", "120", "30") := by
    decide +kernel
  obtain ⟨⟨checkpoint, resumed, cold⟩, calculated, isFigures⟩ := Option.map_eq_some_iff.mp figures
  simp only [Prod.mk.injEq] at isFigures
  obtain ⟨resumedStatus, coldStatus, gross, available⟩ := isFigures
  have runs := calculated
  obtain ⟨first, firstRun, runs⟩ := Option.bind_eq_some_iff.mp runs
  obtain ⟨later, laterRun, runs⟩ := Option.bind_eq_some_iff.mp runs
  obtain ⟨other, otherRun, result⟩ := Option.bind_eq_some_iff.mp runs
  cases Option.some.inj result
  have listed : ∀ block, ∀ scored ∈ (view.config registry alice block).scoredTokens,
      book.Scored scored.token := by
    intro block scored member
    rw [List.mem_singleton.mp member]
    rfl
  have produced : Produced client SmallHistory.abi reads ⟨1, "main"⟩ registry alice first.2 :=
    .cold (by decide) (scoreAt_ok firstRun)
  have same := incremental_score_is_cold serves reads_tell listed produced
    (by decide) (scoreAt_ok laterRun) (scoreAt_ok otherRun)
  exact ⟨first.2, later.1, other.1, calculated, resumedStatus, coldStatus, gross, available, same.1⟩

end SmallScores

end Usd8Core.ScoreApi
