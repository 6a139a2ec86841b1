import Usd8Core.Engine.IncidentOpen
import Usd8Core.Lib.WindowScan

/-!
# Discovery meets its specification

The candidates are the multiples of the step whose two windows lie in the chain
and are finalized.  One qualifies when its sampled ratios drop.  Discovery finds
the first block of the last maximal run of candidates that qualify.
-/

set_option autoImplicit false

namespace Usd8Core.Engine

open Usd8Core.Lib.CheckedCall
open Usd8Core.Lib.WindowScan

/-! ## The specification -/

section Specification

variable (ratio : Nat → Nat) (policy : DiscoveryPolicy)

def Candidate (block : Nat) : Prop :=
  policy.sampleStepBlocks ∣ block ∧
    max (policy.latestBlock - policy.maxAge) (max policy.twapBlocks 1) ≤ block ∧
    block + policy.twapBlocks ≤ policy.finalizedBlock

instance (block : Nat) : Decidable (Candidate policy block) :=
  inferInstanceAs (Decidable (_ ∧ _))

/-- The ratios sampled before a block. -/
def baseline (block : Nat) : Nat :=
  ∑ k ∈ Finset.Icc 1 (policy.twapBlocks / policy.sampleStepBlocks),
    ratio (block - k * policy.sampleStepBlocks)

/-- The ratios sampled after a block. -/
def distress (block : Nat) : Nat :=
  ∑ k ∈ Finset.Icc 1 (policy.twapBlocks / policy.sampleStepBlocks),
    ratio (block + k * policy.sampleStepBlocks)

def Qualifies (block : Nat) : Prop :=
  10000 * distress ratio policy block <
    (10000 - policy.minimumDropBps) * baseline ratio policy block

/-- The candidates from `first` to `last` qualify; the ones beside them do not, or are no
candidates. -/
structure DropRun (first last : Nat) : Prop where
  ordered : first ≤ last
  starts : policy.sampleStepBlocks ∣ first
  ends : policy.sampleStepBlocks ∣ last
  all : ∀ block, policy.sampleStepBlocks ∣ block → first ≤ block → block ≤ last →
    Candidate policy block ∧ Qualifies ratio policy block
  before : ¬ (Candidate policy (first - policy.sampleStepBlocks) ∧
    Qualifies ratio policy (first - policy.sampleStepBlocks))
  after : ¬ (Candidate policy (last + policy.sampleStepBlocks) ∧
    Qualifies ratio policy (last + policy.sampleStepBlocks))

def LastDropRun (first last : Nat) : Prop :=
  DropRun ratio policy first last ∧
    ∀ otherFirst otherLast, DropRun ratio policy otherFirst otherLast → otherLast ≤ last

/-- One point for each candidate, and the two windows beside them. -/
def discoveryPoints : Nat :=
  ((Finset.range (policy.finalizedBlock + 1)).filter (Candidate policy)).card +
    2 * (policy.twapBlocks / policy.sampleStepBlocks)

end Specification

/-- What both callers check before they discover. -/
structure CallerChecked (policy : DiscoveryPolicy) : Prop where
  step : policy.sampleStepBlocks ≠ 0
  whole : policy.sampleStepBlocks ∣ policy.twapBlocks
  samples : 2 ≤ policy.twapBlocks / policy.sampleStepBlocks
  drop : 0 < policy.minimumDropBps
  dropBelow : policy.minimumDropBps < 10000
  window : policy.twapBlocks < policy.maxAge

/-- The block numbers are `u64`. -/
structure PolicyFits (policy : DiscoveryPolicy) : Prop where
  latest : policy.latestBlock < uintBound 64
  ordered : policy.finalizedBlock ≤ policy.latestBlock

/-! ## The candidates as an arithmetic progression -/

section Candidates

variable {policy : DiscoveryPolicy}

def firstCandidate (policy : DiscoveryPolicy) : Nat :=
  let earliest := max (max (policy.latestBlock - policy.maxAge) policy.twapBlocks) 1
  ((earliest - 1) / policy.sampleStepBlocks + 1) * policy.sampleStepBlocks

def lastCandidate (policy : DiscoveryPolicy) : Nat :=
  (policy.finalizedBlock - policy.twapBlocks) / policy.sampleStepBlocks * policy.sampleStepBlocks

def candidateCount (policy : DiscoveryPolicy) : Nat :=
  (lastCandidate policy - firstCandidate policy) / policy.sampleStepBlocks + 1

/-- The least multiple of the step from a positive bound on. -/
theorem ceil_multiple_le (step bound block : Nat) (positive : 0 < step) (least : 0 < bound)
    (multiple : step ∣ block) : ((bound - 1) / step + 1) * step ≤ block ↔ bound ≤ block := by
  obtain ⟨quotient, rfl⟩ := multiple
  rw [Nat.mul_comm step quotient, Nat.mul_le_mul_right_iff positive, Nat.succ_le_iff,
    Nat.div_lt_iff_lt_mul positive]
  omega

/-- The greatest multiple of the step up to a bound. -/
theorem le_floor_multiple (step bound block : Nat) (positive : 0 < step)
    (multiple : step ∣ block) : block ≤ bound / step * step ↔ block ≤ bound := by
  obtain ⟨quotient, rfl⟩ := multiple
  rw [Nat.mul_comm step quotient, Nat.mul_le_mul_right_iff positive, Nat.le_div_iff_mul_le positive]

theorem candidate_iff (checked : CallerChecked policy) (block : Nat) :
    Candidate policy block ↔ policy.sampleStepBlocks ∣ block ∧
      policy.twapBlocks ≤ policy.finalizedBlock ∧
      firstCandidate policy ≤ block ∧ block ≤ lastCandidate policy := by
  have positive := Nat.pos_of_ne_zero checked.step
  unfold Candidate
  refine and_congr_right fun multiple => ?_
  have least : 0 < max (max (policy.latestBlock - policy.maxAge) policy.twapBlocks) 1 := by omega
  unfold firstCandidate lastCandidate
  rw [ceil_multiple_le _ _ _ positive least multiple, le_floor_multiple _ _ _ positive multiple]
  omega

theorem CallerChecked.windowBlocks (checked : CallerChecked policy) :
    policy.twapBlocks / policy.sampleStepBlocks * policy.sampleStepBlocks = policy.twapBlocks :=
  Nat.div_mul_cancel checked.whole

theorem candidateCount_steps (nonempty : firstCandidate policy ≤ lastCandidate policy) :
    firstCandidate policy + candidateCount policy * policy.sampleStepBlocks =
      lastCandidate policy + policy.sampleStepBlocks := by
  have whole : policy.sampleStepBlocks ∣ lastCandidate policy - firstCandidate policy :=
    Nat.dvd_sub (Nat.dvd_mul_left _ _) (Nat.dvd_mul_left _ _)
  have divides := Nat.div_mul_cancel whole
  unfold candidateCount
  rw [Nat.add_mul, divides, Nat.one_mul]
  omega

theorem candidate_progression (checked : CallerChecked policy)
    (window : policy.twapBlocks ≤ policy.finalizedBlock)
    (nonempty : firstCandidate policy ≤ lastCandidate policy) (block : Nat) :
    Candidate policy block ↔ ∃ index < candidateCount policy,
      block = firstCandidate policy + index * policy.sampleStepBlocks := by
  have positive := Nat.pos_of_ne_zero checked.step
  have steps := candidateCount_steps nonempty
  have firstMultiple : policy.sampleStepBlocks ∣ firstCandidate policy := Nat.dvd_mul_left _ _
  rw [candidate_iff checked]
  constructor
  · rintro ⟨multiple, -, above, below⟩
    obtain ⟨index, offset⟩ := Nat.dvd_sub multiple firstMultiple
    rw [Nat.mul_comm] at offset
    refine ⟨index, ?_, by omega⟩
    apply Nat.lt_of_mul_lt_mul_right (a := policy.sampleStepBlocks)
    omega
  · rintro ⟨index, inside, rfl⟩
    have most := Nat.mul_le_mul_right policy.sampleStepBlocks inside
    rw [Nat.succ_mul] at most
    exact ⟨Nat.dvd_add firstMultiple (Nat.dvd_mul_left _ _), window, Nat.le_add_right _ _,
      by omega⟩

theorem discoveryPoints_eq (checked : CallerChecked policy)
    (window : policy.twapBlocks ≤ policy.finalizedBlock)
    (nonempty : firstCandidate policy ≤ lastCandidate policy) :
    discoveryPoints policy =
      candidateCount policy + 2 * (policy.twapBlocks / policy.sampleStepBlocks) := by
  have positive := Nat.pos_of_ne_zero checked.step
  have image : (Finset.range (policy.finalizedBlock + 1)).filter (Candidate policy) =
      (Finset.range (candidateCount policy)).image
        fun index => firstCandidate policy + index * policy.sampleStepBlocks := by
    ext block
    rw [Finset.mem_filter, Finset.mem_image, candidate_progression checked window nonempty]
    constructor
    · rintro ⟨-, index, inside, rfl⟩
      exact ⟨index, Finset.mem_range.mpr inside, rfl⟩
    · rintro ⟨index, inside, rfl⟩
      have isCandidate := (candidate_progression checked window nonempty _).mpr
        ⟨index, Finset.mem_range.mp inside, rfl⟩
      have finalized := isCandidate.2.2
      exact ⟨Finset.mem_range.mpr (by omega), index, Finset.mem_range.mp inside, rfl⟩
  have injective : Function.Injective fun index : Nat =>
      firstCandidate policy + index * policy.sampleStepBlocks := by
    intro first second same
    exact Nat.eq_of_mul_eq_mul_right positive (Nat.add_left_cancel same)
  rw [discoveryPoints, image, Finset.card_image_of_injective _ injective, Finset.card_range]

end Candidates

/-! ## The plan -/

section Plan

variable {policy : DiscoveryPolicy}

/-- The loop collects every point up to the last one. -/
theorem sampleBlocks_eq (step lastPoint points rounds block : Nat)
    (enough : points ≤ rounds) (fits : lastPoint < uintBound 64) (positive : 0 < step)
    (reaches : block + points * step = lastPoint + step) :
    sampleBlocks step lastPoint rounds block =
      (List.range points).map fun index => block + index * step := by
  induction points generalizing rounds block with
  | zero =>
      have beyond : ¬ block ≤ lastPoint := by omega
      cases rounds with
      | zero => rfl
      | succ rounds => simp [sampleBlocks, beyond]
  | succ points ih =>
      obtain ⟨rounds, rfl⟩ := Nat.exists_eq_add_of_lt enough
      rw [Nat.succ_mul] at reaches
      have within : block ≤ lastPoint := by omega
      rw [sampleBlocks, if_pos within, List.range_succ_eq_map, List.map_cons,
        List.map_map]
      congr 1
      · rw [Nat.zero_mul, Nat.add_zero]
      · by_cases last : points = 0
        · subst last
          split
          · rw [ih _ _ (by omega) (by omega)]
            rfl
          · rfl
        · have more : step ≤ points * step := Nat.le_mul_of_pos_left step (Nat.pos_of_ne_zero last)
          rw [if_pos (by omega), ih _ _ (by omega) (by omega)]
          apply List.map_congr_left
          intro index _
          simp only [Function.comp_apply, Nat.succ_mul]
          omega

/-- The plan of a discovery that goes on to read prices. -/
def expectedPlan (policy : DiscoveryPolicy) : DiscoveryPlan where
  firstCandidate := firstCandidate policy
  candidateCount := candidateCount policy
  sampleCount := policy.twapBlocks / policy.sampleStepBlocks
  blocks := (List.range (discoveryPoints policy)).map fun index =>
    firstCandidate policy - policy.twapBlocks + index * policy.sampleStepBlocks

/-- There are candidates, and few enough of them. -/
structure Discoverable (policy : DiscoveryPolicy) : Prop where
  window : policy.twapBlocks ≤ policy.finalizedBlock
  nonempty : firstCandidate policy ≤ lastCandidate policy
  small : discoveryPoints policy ≤ maxIncidentOpenDiscoveryPoints

theorem CallerChecked.twapPositive (checked : CallerChecked policy) : 0 < policy.twapBlocks := by
  have samples := checked.samples
  rw [← checked.windowBlocks]
  exact Nat.mul_pos (by omega) (Nat.pos_of_ne_zero checked.step)

/-- The window before the first candidate lies in the chain. -/
theorem twapBlocks_le_firstCandidate (checked : CallerChecked policy) :
    policy.twapBlocks ≤ firstCandidate policy := by
  have positive := Nat.pos_of_ne_zero checked.step
  have least : 0 < max (max (policy.latestBlock - policy.maxAge) policy.twapBlocks) 1 := by omega
  have reaches := (ceil_multiple_le _ _ (firstCandidate policy) positive least
    (Nat.dvd_mul_left _ _)).mp le_rfl
  omega

theorem lastCandidate_finalized (window : policy.twapBlocks ≤ policy.finalizedBlock) :
    lastCandidate policy + policy.twapBlocks ≤ policy.finalizedBlock := by
  have floor : lastCandidate policy ≤ policy.finalizedBlock - policy.twapBlocks :=
    Nat.div_mul_le_self _ _
  omega

/-- Few points have not been saturated. -/
theorem saturatingMul_small {a b : Nat} (small : saturatingMul a b ≤ 256) :
    saturatingMul a b = a * b := by
  have large : 256 < maxU64 := by decide
  unfold saturatingMul at small ⊢
  omega

theorem expectedPlan_blocks (checked : CallerChecked policy) (fits : PolicyFits policy)
    (discoverable : Discoverable policy) :
    sampleBlocks policy.sampleStepBlocks (lastCandidate policy + policy.twapBlocks)
        (discoveryPoints policy + 1) (firstCandidate policy - policy.twapBlocks) =
      (expectedPlan policy).blocks := by
  have latestFits := fits.latest
  have finalizedLe := fits.ordered
  have finalized := lastCandidate_finalized discoverable.window
  have inChain := twapBlocks_le_firstCandidate checked
  have steps := candidateCount_steps discoverable.nonempty
  have points := discoveryPoints_eq checked discoverable.window discoverable.nonempty
  apply sampleBlocks_eq
  · exact Nat.le_succ _
  · omega
  · exact Nat.pos_of_ne_zero checked.step
  · rw [points, Nat.add_mul, Nat.mul_assoc, checked.windowBlocks]
    omega

/-- The plan is made exactly for what is discoverable. -/
theorem discoveryPlan_ok_iff (checked : CallerChecked policy) (fits : PolicyFits policy)
    (plan : DiscoveryPlan) :
    discoveryPlan policy = .ok plan ↔ Discoverable policy ∧ plan = expectedPlan policy := by
  have latestFits := fits.latest
  have finalizedLe := fits.ordered
  have least : max (max (policy.latestBlock - policy.maxAge) policy.twapBlocks) 1 ≠ 0 := by omega
  have twapPositive := checked.twapPositive
  have inChain := twapBlocks_le_firstCandidate checked
  have firstEq : ((max (max (policy.latestBlock - policy.maxAge) policy.twapBlocks) 1 - 1) /
      policy.sampleStepBlocks + 1) * policy.sampleStepBlocks = firstCandidate policy := rfl
  have lastEq : (policy.finalizedBlock - policy.twapBlocks) / policy.sampleStepBlocks *
      policy.sampleStepBlocks = lastCandidate policy := rfl
  simp only [discoveryPlan, bind_ok_iff, revertIf_ok_iff, ceilDiv_ok_iff, checkedDiv_ok_iff,
    checkedMul_ok_iff, checkedSub_ok_iff, checkedAdd_ok_iff, pure_ok_iff, if_neg least, not_or,
    not_lt, not_le, exists_const, ne_eq, checked.step, not_false_eq_true, true_and,
    exists_eq_left, firstEq, lastEq]
  constructor
  · rintro ⟨window, -, _, ⟨-, rfl⟩, ⟨nonempty, -⟩, _, ⟨-, rfl⟩, _, ⟨-, rfl⟩, -, small, _,
      ⟨-, rfl⟩, -, rfl⟩
    have unsaturated : saturatingMul (policy.twapBlocks / policy.sampleStepBlocks) 2 =
        policy.twapBlocks / policy.sampleStepBlocks * 2 :=
      saturatingMul_small ((Nat.le_add_left _ _).trans small)
    have points : candidateCount policy +
        saturatingMul (policy.twapBlocks / policy.sampleStepBlocks) 2 = discoveryPoints policy := by
      rw [discoveryPoints_eq checked window nonempty, unsaturated, Nat.mul_comm 2]
    have discoverable : Discoverable policy := ⟨window, nonempty, by rw [← points]; exact small⟩
    refine ⟨discoverable, ?_⟩
    have blocks := expectedPlan_blocks checked fits discoverable
    rw [← points] at blocks
    exact congrArg (DiscoveryPlan.mk (firstCandidate policy) (candidateCount policy)
      (policy.twapBlocks / policy.sampleStepBlocks)) blocks
  · rintro ⟨discoverable, rfl⟩
    have finalized := lastCandidate_finalized discoverable.window
    have nonempty := discoverable.nonempty
    have few : discoveryPoints policy ≤ 256 := discoverable.small
    have points := discoveryPoints_eq checked discoverable.window nonempty
    have words : 256 < uintBound 64 := by decide
    have unsaturated : saturatingMul (policy.twapBlocks / policy.sampleStepBlocks) 2 =
        policy.twapBlocks / policy.sampleStepBlocks * 2 := by
      apply saturatingMul_small
      have least := Nat.min_le_left (policy.twapBlocks / policy.sampleStepBlocks * 2) maxU64
      unfold saturatingMul
      omega
    have count : candidateCount policy +
        policy.twapBlocks / policy.sampleStepBlocks * 2 = discoveryPoints policy := by omega
    have total : (lastCandidate policy - firstCandidate policy) / policy.sampleStepBlocks + 1 =
        candidateCount policy := rfl
    rw [unsaturated]
    refine ⟨discoverable.window, by omega, _, ⟨by omega, rfl⟩, ⟨nonempty, by omega⟩, _,
      ⟨nonempty, rfl⟩, _, ⟨by rw [total]; omega, rfl⟩, ?_⟩
    rw [total, count]
    refine ⟨by omega, few, _, ⟨inChain, rfl⟩, by omega, ?_⟩
    rw [expectedPlan_blocks checked fits discoverable]
    rfl

/-- The compiler's own reverts. -/
def IsPanic (error : IncidentOpenError) : Prop := ∃ reason, error = .panic reason

theorem discoveryPlan_avoids (checked : CallerChecked policy) (fits : PolicyFits policy) :
    Avoids IsPanic (discoveryPlan policy) := by
  have latestFits := fits.latest
  have finalizedLe := fits.ordered
  have inChain := twapBlocks_le_firstCandidate checked
  have named : ∀ error : IncidentOpenError, (∀ reason, error ≠ .panic reason) → ¬ IsPanic error :=
    fun error other ⟨reason, same⟩ => other reason same
  refine avoids_revertIf_bind _ _ _ (fun _ => named _ (by simp)) fun window => ?_
  have finalized := lastCandidate_finalized (not_lt.mp window)
  refine avoids_bind _ _ ?_ fun firstStep firstRun => ?_
  · intro error failed
    unfold ceilDiv at failed
    rw [if_neg checked.step] at failed
    cases failed
  have least : max (max (policy.latestBlock - policy.maxAge) policy.twapBlocks) 1 ≠ 0 := by omega
  have firstEq : firstStep * policy.sampleStepBlocks = firstCandidate policy := by
    rw [((ceilDiv_ok_iff _ _ _).mp firstRun).2, if_neg least]
    rfl
  refine avoids_revertIf_bind _ _ _ (fun _ => named _ (by simp)) fun _ => ?_
  refine avoids_bind _ _ (avoids_checkedDiv _ _ fun zero => absurd zero checked.step)
    fun lastStep lastRun => ?_
  have lastEq : lastStep * policy.sampleStepBlocks = lastCandidate policy := by
    rw [((checkedDiv_ok_iff _ _ _).mp lastRun).2]
    rfl
  refine avoids_bind _ _ ?_ fun last lastRun => ?_
  · intro error failed
    unfold checkedMul at failed
    rw [lastEq, if_pos (by omega)] at failed
    cases failed
  cases ((checkedMul_ok_iff _ _ _ _).mp lastRun).2.trans lastEq
  rw [firstEq]
  refine avoids_revertIf_bind _ _ _ (fun _ => named _ (by simp)) fun nonempty => ?_
  rw [not_or, not_lt, not_le] at nonempty
  refine avoids_bind _ _ (avoids_checkedSub _ _ fun below => by omega) fun span spanRun => ?_
  refine avoids_bind _ _ (avoids_checkedDiv _ _ fun zero => absurd zero checked.step)
    fun steps stepsRun => ?_
  refine avoids_bind _ _ ?_ fun count _ => ?_
  · intro error failed
    have spanEq := ((checkedSub_ok_iff _ _ _).mp spanRun).2
    have stepsEq := ((checkedDiv_ok_iff _ _ _).mp stepsRun).2
    have fewer : steps ≤ span := by
      rw [stepsEq]
      exact Nat.div_le_self _ _
    have twapPositive := checked.twapPositive
    unfold checkedAdd at failed
    rw [if_pos (by omega)] at failed
    cases failed
  refine avoids_bind _ _ (avoids_checkedDiv _ _ fun zero => absurd zero checked.step)
    fun _ _ => ?_
  refine avoids_revertIf_bind _ _ _ (fun _ => named _ (by simp)) fun _ => ?_
  refine avoids_revertIf_bind _ _ _ (fun _ => named _ (by simp)) fun _ => ?_
  refine avoids_bind _ _ (avoids_checkedSub _ _ fun below => by omega) fun _ _ => ?_
  refine avoids_revertIf_bind _ _ _ (fun _ => named _ (by simp)) fun _ => ?_
  exact avoids_pure _

end Plan

/-! ## The scan -/

section Scan

variable {policy : DiscoveryPolicy}

/-- The ratio at the sample point with this number. -/
def sampled (ratio : Nat → Nat) (policy : DiscoveryPolicy) (index : Nat) : Nat :=
  ratio (firstCandidate policy - policy.twapBlocks + index * policy.sampleStepBlocks)

/-- A candidate, by its number, qualifies. -/
def Drops (ratio : Nat → Nat) (policy : DiscoveryPolicy) (index : Nat) : Prop :=
  let samples := policy.twapBlocks / policy.sampleStepBlocks
  windowSum (sampled ratio policy) (index + samples + 1) samples * 10000 <
    windowSum (sampled ratio policy) index samples * (10000 - policy.minimumDropBps)

instance (ratio : Nat → Nat) (index : Nat) : Decidable (Drops ratio policy index) :=
  inferInstanceAs (Decidable (_ < _))

/-- The selection of the candidate with this number. -/
def selectionAt (ratio : Nat → Nat) (policy : DiscoveryPolicy) (index : Nat) : TwapSelection :=
  let samples := policy.twapBlocks / policy.sampleStepBlocks
  { referenceBlock := firstCandidate policy + index * policy.sampleStepBlocks
    baselineSum := windowSum (sampled ratio policy) index samples
    distressSum := windowSum (sampled ratio policy) (index + samples + 1) samples
    sampleCount := samples }

/-- Before the iteration with this number. -/
structure Scanning (ratio : Nat → Nat) (policy : DiscoveryPolicy) (round : Nat)
    (state : DiscoveryState) : Prop where
  windows : round < candidateCount policy →
    state.baselineSum = (selectionAt ratio policy round).baselineSum ∧
      state.distressSum = (selectionAt ratio policy round).distressSum
  previous : state.previousQualified = true ↔ 0 < round ∧ Drops ratio policy (round - 1)
  selected : state.selected = (lastStart (Drops ratio policy) round).map (selectionAt ratio policy)

/-- The ratios that discovery reads. -/
def sampledRatios (ratio : Nat → Nat) (policy : DiscoveryPolicy) : List Nat :=
  (expectedPlan policy).blocks.map ratio

theorem sampledRatios_length (ratio : Nat → Nat) (policy : DiscoveryPolicy) :
    (sampledRatios ratio policy).length = discoveryPoints policy := by
  simp [sampledRatios, expectedPlan]

theorem sampledRatios_get (ratio : Nat → Nat) (policy : DiscoveryPolicy) (index : Nat)
    (inside : index < discoveryPoints policy) :
    (sampledRatios ratio policy)[index]? = some (sampled ratio policy index) := by
  simp [sampledRatios, expectedPlan, sampled, inside]

theorem ratioAt_ok (ratio : Nat → Nat) (index : Nat) (inside : index < discoveryPoints policy) :
    ratioAt (sampledRatios ratio policy) index = .ok (sampled ratio policy index) := by
  rw [ratioAt, orRevert_ok_iff, sampledRatios_get ratio policy index inside]

theorem sumSlice_ok (ratio : Nat → Nat) (start stop : Nat) (ordered : start ≤ stop)
    (inside : stop ≤ discoveryPoints policy) :
    sumSlice (sampledRatios ratio policy) start stop =
      .ok (windowSum (sampled ratio policy) start (stop - start)) := by
  have length := sampledRatios_length ratio policy
  refine (bind_ok_iff _ _ _).mpr ⟨(), ?_, ?_⟩
  · rw [revertIf_ok_iff, length]
    omega
  · rw [pure_ok_iff]
    exact sum_take_drop _ start (stop - start) _ (by omega) fun index below =>
      sampledRatios_get ratio policy index (length ▸ below)

/-- The window moves on by one sample. -/
theorem slide_ok (ratio : Nat → Nat) (sum start length : Nat) (positive : 0 < length)
    (window : sum = windowSum (sampled ratio policy) start length) :
    ∃ left, (checkedSub sum (sampled ratio policy start) : OpenCall Nat) = .ok left ∧
      left + sampled ratio policy (start + length) =
        windowSum (sampled ratio policy) (start + 1) length := by
  have inside := le_windowSum (sampled ratio policy) start length positive
  refine ⟨sum - sampled ratio policy start, ?_, ?_⟩
  · rw [checkedSub_ok_iff]
    omega
  · rw [window]
    exact windowSum_slide _ start length positive

theorem select_ok (ratio : Nat → Nat) (fits : PolicyFits policy)
    (discoverable : Discoverable policy) {round : Nat} {state : DiscoveryState}
    (inside : round < candidateCount policy) (scanning : Scanning ratio policy round state) :
    (if decide (state.distressSum * 10000 <
          state.baselineSum * (10000 - policy.minimumDropBps)) && !state.previousQualified then do
        let selection ← selectCandidate policy (expectedPlan policy) state round
        pure (some selection)
      else pure state.selected : OpenCall (Option TwapSelection)) =
      .ok ((lastStart (Drops ratio policy) (round + 1)).map (selectionAt ratio policy)) := by
  obtain ⟨baselineEq, distressEq⟩ := scanning.windows inside
  have qualified : decide (state.distressSum * 10000 <
      state.baselineSum * (10000 - policy.minimumDropBps)) = decide (Drops ratio policy round) := by
    rw [baselineEq, distressEq]
    rfl
  have isStart : (decide (Drops ratio policy round) && !state.previousQualified) = true ↔
      StartsRun (Drops ratio policy) round := by
    rw [Bool.and_eq_true, decide_eq_true_eq, Bool.not_eq_true', ← Bool.not_eq_true,
      scanning.previous]
    rfl
  rw [qualified, lastStart]
  by_cases starts : StartsRun (Drops ratio policy) round
  · have latestFits := fits.latest
    have finalizedLe := fits.ordered
    have finalized := lastCandidate_finalized discoverable.window
    have steps := candidateCount_steps discoverable.nonempty
    have most := Nat.mul_le_mul_right policy.sampleStepBlocks inside
    rw [Nat.succ_mul] at most
    rw [if_pos (isStart.mpr starts), if_pos starts]
    refine (bind_ok_iff _ _ _).mpr ⟨selectionAt ratio policy round, ?_, rfl⟩
    refine (bind_ok_iff _ _ _).mpr ⟨round * policy.sampleStepBlocks, ?_, ?_⟩
    · exact (checkedMul_ok_iff _ _ _ _).mpr ⟨by omega, rfl⟩
    · refine (bind_ok_iff _ _ _).mpr
        ⟨firstCandidate policy + round * policy.sampleStepBlocks, ?_, ?_⟩
      · exact (checkedAdd_ok_iff _ _ _ _).mpr ⟨by change firstCandidate policy + _ < _; omega, rfl⟩
      · rw [pure_ok_iff, baselineEq, distressEq]
        rfl
  · rw [if_neg (fun start => starts (isStart.mp start)), if_neg starts, scanning.selected]
    rfl

theorem discoveryStep_ok (ratio : Nat → Nat) (checked : CallerChecked policy)
    (fits : PolicyFits policy) (discoverable : Discoverable policy) (round : Nat)
    (state : DiscoveryState) (inside : round < candidateCount policy)
    (scanning : Scanning ratio policy round state) :
    ∃ next, discoveryStep policy (expectedPlan policy) (10000 - policy.minimumDropBps)
        (sampledRatios ratio policy) state round = .ok next ∧
      Scanning ratio policy (round + 1) next := by
  have selected := select_ok ratio fits discoverable inside scanning
  obtain ⟨baselineEq, distressEq⟩ := scanning.windows inside
  have points := discoveryPoints_eq checked discoverable.window discoverable.nonempty
  have samples := checked.samples
  have qualified : decide (state.distressSum * 10000 <
      state.baselineSum * (10000 - policy.minimumDropBps)) = true ↔
        0 < round + 1 ∧ Drops ratio policy (round + 1 - 1) := by
    rw [decide_eq_true_eq, baselineEq, distressEq, Nat.add_sub_cancel]
    exact ⟨fun drops => ⟨Nat.succ_pos round, drops⟩, And.right⟩
  unfold discoveryStep
  by_cases more : round + 1 < candidateCount policy
  · obtain ⟨baselineLeft, baselineRun, baselineNext⟩ :=
      slide_ok ratio state.baselineSum round _ (by omega) baselineEq
    obtain ⟨distressLeft, distressRun, distressNext⟩ :=
      slide_ok ratio state.distressSum _ _ (by omega) distressEq
    let next : DiscoveryState := ⟨baselineLeft +
        sampled ratio policy (round + policy.twapBlocks / policy.sampleStepBlocks),
      distressLeft + sampled ratio policy (round + policy.twapBlocks / policy.sampleStepBlocks + 1 +
        policy.twapBlocks / policy.sampleStepBlocks),
      (lastStart (Drops ratio policy) (round + 1)).map (selectionAt ratio policy),
      decide (state.distressSum * 10000 < state.baselineSum * (10000 - policy.minimumDropBps))⟩
    have lastIndex : round + policy.twapBlocks / policy.sampleStepBlocks * 2 + 1 =
        round + policy.twapBlocks / policy.sampleStepBlocks + 1 +
          policy.twapBlocks / policy.sampleStepBlocks := by omega
    have shifted : round + policy.twapBlocks / policy.sampleStepBlocks + 1 + 1 =
        round + 1 + policy.twapBlocks / policy.sampleStepBlocks + 1 := by omega
    rw [shifted] at distressNext
    have scanned : Scanning ratio policy (round + 1) next :=
      ⟨fun _ => ⟨baselineNext, distressNext⟩, qualified, rfl⟩
    refine ⟨next, (bind_ok_iff _ _ _).mpr ⟨_, selected, ?_⟩, scanned⟩
    refine (if_pos more).trans ?_
    refine (bind_ok_iff _ _ _).mpr ⟨_, ratioAt_ok ratio _ (by omega), ?_⟩
    refine (bind_ok_iff _ _ _).mpr ⟨baselineLeft, baselineRun, ?_⟩
    refine (bind_ok_iff _ _ _).mpr ⟨_, ratioAt_ok ratio _ (by
      change round + policy.twapBlocks / policy.sampleStepBlocks < _; omega), ?_⟩
    refine (bind_ok_iff _ _ _).mpr ⟨_, ratioAt_ok ratio _ (by
      change round + policy.twapBlocks / policy.sampleStepBlocks + 1 < _; omega), ?_⟩
    refine (bind_ok_iff _ _ _).mpr ⟨distressLeft, distressRun, ?_⟩
    refine (bind_ok_iff _ _ _).mpr ⟨_, ratioAt_ok ratio _ (by
      change round + policy.twapBlocks / policy.sampleStepBlocks * 2 + 1 < _; omega), ?_⟩
    rw [pure_ok_iff]
    change DiscoveryState.mk _ (distressLeft + sampled ratio policy
      (round + policy.twapBlocks / policy.sampleStepBlocks * 2 + 1)) _ _ = next
    rw [lastIndex]
    rfl
  · refine ⟨⟨state.baselineSum, state.distressSum, _, _⟩,
      (bind_ok_iff _ _ _).mpr ⟨_, selected, if_neg more⟩, fun below => absurd below more,
      qualified, rfl⟩

/-- The scan selects the last start of a run of drops. -/
theorem scanRatios_eq (ratio : Nat → Nat) (checked : CallerChecked policy)
    (fits : PolicyFits policy) (discoverable : Discoverable policy) :
    scanRatios policy (expectedPlan policy) (sampledRatios ratio policy) =
      orRevert ((lastStart (Drops ratio policy) (candidateCount policy)).map
        (selectionAt ratio policy)) (.insufficientPriceDrop policy.minimumDropBps) := by
  have points := discoveryPoints_eq checked discoverable.window discoverable.nonempty
  have counted : 0 < candidateCount policy := Nat.succ_pos _
  let samples := policy.twapBlocks / policy.sampleStepBlocks
  have baselineRun : sumSlice (sampledRatios ratio policy) 0 samples =
      .ok (selectionAt ratio policy 0).baselineSum :=
    sumSlice_ok ratio 0 samples (Nat.zero_le _) (by change policy.twapBlocks / _ ≤ _; omega)
  have distressRun : sumSlice (sampledRatios ratio policy) (samples + 1) (samples * 2 + 1) =
      .ok (selectionAt ratio policy 0).distressSum := by
    have length : samples * 2 + 1 - (samples + 1) = samples := by omega
    rw [sumSlice_ok ratio _ _ (by omega)
      (by change policy.twapBlocks / policy.sampleStepBlocks * 2 + 1 ≤ _; omega), length]
    simp only [selectionAt, Nat.zero_add, samples]
  have remaining : (checkedSub 10000 policy.minimumDropBps : OpenCall Nat) =
      .ok (10000 - policy.minimumDropBps) :=
    (checkedSub_ok_iff _ _ _).mpr ⟨checked.dropBelow.le, rfl⟩
  have begins : Scanning ratio policy 0 ⟨(selectionAt ratio policy 0).baselineSum,
      (selectionAt ratio policy 0).distressSum, none, false⟩ := by
    refine ⟨fun _ => ⟨rfl, rfl⟩, ?_, rfl⟩
    simp
  obtain ⟨final, loop, scanned⟩ := foldlM_range_ok
    (discoveryStep policy (expectedPlan policy) (10000 - policy.minimumDropBps)
      (sampledRatios ratio policy)) (Scanning ratio policy) (candidateCount policy)
    (fun round state inside scanning =>
      discoveryStep_ok ratio checked fits discoverable round state inside scanning) _ begins
  unfold scanRatios
  refine (bind_after baselineRun _).trans ?_
  refine (bind_after distressRun _).trans ?_
  refine (bind_after remaining _).trans ?_
  refine (bind_after loop _).trans ?_
  rw [scanned.selected]

end Scan

/-! ## Windows and runs by block -/

section Blocks

variable {policy : DiscoveryPolicy} (ratio : Nat → Nat)

def candidateAt (policy : DiscoveryPolicy) (index : Nat) : Nat :=
  firstCandidate policy + index * policy.sampleStepBlocks

theorem candidateAt_succ (index : Nat) :
    candidateAt policy (index + 1) = candidateAt policy index + policy.sampleStepBlocks := by
  unfold candidateAt
  rw [Nat.succ_mul]
  omega

theorem candidateAt_dvd (index : Nat) : policy.sampleStepBlocks ∣ candidateAt policy index :=
  Nat.dvd_add (Nat.dvd_mul_left _ _) (Nat.dvd_mul_left _ _)

theorem candidateAt_le_iff (checked : CallerChecked policy) (first last : Nat) :
    candidateAt policy first ≤ candidateAt policy last ↔ first ≤ last := by
  unfold candidateAt
  rw [Nat.add_le_add_iff_left, Nat.mul_le_mul_right_iff (Nat.pos_of_ne_zero checked.step)]

theorem candidateAt_inj (checked : CallerChecked policy) {first second : Nat}
    (same : candidateAt policy first = candidateAt policy second) : first = second :=
  Nat.le_antisymm ((candidateAt_le_iff checked _ _).mp same.le)
    ((candidateAt_le_iff checked _ _).mp same.ge)

theorem window_before (checked : CallerChecked policy) (index : Nat) :
    windowSum (sampled ratio policy) index (policy.twapBlocks / policy.sampleStepBlocks) =
      baseline ratio policy (candidateAt policy index) := by
  have inChain := twapBlocks_le_firstCandidate checked
  have whole := checked.windowBlocks
  unfold windowSum baseline
  rw [← Finset.sum_range_reflect, ← Finset.Ico_succ_right_eq_Icc, Finset.sum_Ico_eq_sum_range]
  apply Finset.sum_congr rfl
  intro k inside
  rw [Finset.mem_range] at inside
  obtain ⟨rest, split⟩ := Nat.exists_eq_add_of_lt inside
  have mirrored : policy.twapBlocks / policy.sampleStepBlocks - 1 - k = rest := by omega
  rw [split, Nat.add_mul, Nat.add_mul, Nat.one_mul] at whole
  unfold sampled candidateAt
  congr 1
  rw [mirrored, Nat.add_mul, Nat.add_mul, Nat.one_mul]
  omega

theorem window_after (checked : CallerChecked policy) (index : Nat) :
    windowSum (sampled ratio policy) (index + policy.twapBlocks / policy.sampleStepBlocks + 1)
        (policy.twapBlocks / policy.sampleStepBlocks) =
      distress ratio policy (candidateAt policy index) := by
  have inChain := twapBlocks_le_firstCandidate checked
  have whole := checked.windowBlocks
  unfold windowSum distress
  rw [← Finset.Ico_succ_right_eq_Icc, Finset.sum_Ico_eq_sum_range]
  apply Finset.sum_congr rfl
  intro k _
  unfold sampled candidateAt
  congr 1
  rw [Nat.add_mul, Nat.add_mul, Nat.add_mul, Nat.add_mul, whole]
  omega

theorem selectionAt_eq (checked : CallerChecked policy) (index : Nat) :
    selectionAt ratio policy index =
      ⟨candidateAt policy index, baseline ratio policy (candidateAt policy index),
        distress ratio policy (candidateAt policy index),
        policy.twapBlocks / policy.sampleStepBlocks⟩ := by
  unfold selectionAt
  rw [← window_before ratio checked, ← window_after ratio checked]
  rfl

theorem drops_iff (checked : CallerChecked policy) (index : Nat) :
    Drops ratio policy index ↔ Qualifies ratio policy (candidateAt policy index) := by
  have before := window_before ratio checked index
  have after := window_after ratio checked index
  unfold Qualifies
  rw [← before, ← after, Nat.mul_comm 10000, Nat.mul_comm (10000 - _)]
  rfl

theorem candidate_candidateAt (checked : CallerChecked policy) (discoverable : Discoverable policy)
    (index : Nat) : Candidate policy (candidateAt policy index) ↔ index < candidateCount policy := by
  rw [candidate_progression checked discoverable.window discoverable.nonempty]
  constructor
  · rintro ⟨other, inside, same⟩
    rw [candidateAt_inj checked same]
    exact inside
  · intro inside
    exact ⟨index, inside, rfl⟩

/-- A candidate that qualifies, by its number. -/
theorem qualifying_candidateAt (checked : CallerChecked policy)
    (discoverable : Discoverable policy) (index : Nat) :
    Candidate policy (candidateAt policy index) ∧ Qualifies ratio policy (candidateAt policy index) ↔
      index < candidateCount policy ∧ Drops ratio policy index := by
  rw [candidate_candidateAt checked discoverable, drops_iff ratio checked]

theorem dropRun_iff (checked : CallerChecked policy) (discoverable : Discoverable policy)
    (first last : Nat) :
    DropRun ratio policy first last ↔ ∃ firstIndex lastIndex,
      first = candidateAt policy firstIndex ∧ last = candidateAt policy lastIndex ∧
        MaximalRun (Drops ratio policy) (candidateCount policy) firstIndex lastIndex := by
  have numbered := candidate_progression checked discoverable.window discoverable.nonempty
  have qualifying := qualifying_candidateAt ratio checked discoverable
  constructor
  · intro run
    obtain ⟨firstIndex, firstInside, rfl⟩ :=
      (numbered _).mp (run.all first run.starts le_rfl run.ordered).1
    obtain ⟨lastIndex, lastInside, rfl⟩ :=
      (numbered _).mp (run.all last run.ends run.ordered le_rfl).1
    have ordered := (candidateAt_le_iff checked firstIndex lastIndex).mp run.ordered
    refine ⟨firstIndex, lastIndex, rfl, rfl, ordered, lastInside, fun index above below => ?_, ?_, ?_⟩
    · exact ((qualifying index).mp (run.all _ (candidateAt_dvd index)
        ((candidateAt_le_iff checked _ _).mpr above)
        ((candidateAt_le_iff checked _ _).mpr below))).2
    · rintro ⟨positive, drops⟩
      obtain ⟨previous, rfl⟩ := Nat.exists_eq_succ_of_ne_zero positive.ne'
      have before := run.before
      change ¬ (Candidate policy (candidateAt policy (previous + 1) - _) ∧
        Qualifies ratio policy (candidateAt policy (previous + 1) - _)) at before
      rw [candidateAt_succ, Nat.add_sub_cancel] at before
      exact before ((qualifying previous).mpr ⟨by omega, drops⟩)
    · intro later
      have after := run.after
      change ¬ (Candidate policy (candidateAt policy lastIndex + _) ∧
        Qualifies ratio policy (candidateAt policy lastIndex + _)) at after
      rw [← candidateAt_succ] at after
      exact after ((qualifying _).mpr later)
  · rintro ⟨firstIndex, lastIndex, rfl, rfl, run⟩
    refine ⟨(candidateAt_le_iff checked _ _).mpr run.ordered, candidateAt_dvd _, candidateAt_dvd _,
      fun block multiple above below => ?_, ?_, ?_⟩
    · obtain ⟨steps, offset⟩ := Nat.dvd_sub multiple (candidateAt_dvd firstIndex)
      have same : block = candidateAt policy (firstIndex + steps) := by
        unfold candidateAt at above offset ⊢
        rw [Nat.add_mul, Nat.mul_comm steps]
        omega
      subst same
      have within := (candidateAt_le_iff checked _ _).mp below
      have inside := run.inside
      exact (qualifying _).mpr ⟨by omega, run.all _ (Nat.le_add_right _ _) within⟩
    · cases firstIndex with
      | zero =>
          rintro ⟨earlier, -⟩
          have above := ((candidate_iff checked _).mp earlier).2.2.1
          have start : candidateAt policy 0 = firstCandidate policy := by simp [candidateAt]
          have positive := Nat.pos_of_ne_zero checked.step
          have inChain := twapBlocks_le_firstCandidate checked
          have twapPositive := checked.twapPositive
          omega
      | succ previous =>
          rw [candidateAt_succ, Nat.add_sub_cancel, qualifying]
          intro earlier
          exact run.before ⟨Nat.succ_pos _, earlier.2⟩
    · rw [← candidateAt_succ, qualifying]
      exact run.after

theorem lastDropRun_iff (checked : CallerChecked policy) (discoverable : Discoverable policy)
    (first : Nat) :
    (∃ last, LastDropRun ratio policy first last) ↔
      ∃ index, lastStart (Drops ratio policy) (candidateCount policy) = some index ∧
        first = candidateAt policy index := by
  have runs := dropRun_iff ratio checked discoverable
  constructor
  · rintro ⟨last, run, latest⟩
    obtain ⟨firstIndex, lastIndex, rfl, rfl, maximal⟩ := (runs _ _).mp run
    refine ⟨firstIndex, lastStart_iff_lastRun.mpr ⟨lastIndex, maximal, ?_⟩, rfl⟩
    intro otherFirst otherLast other
    exact (candidateAt_le_iff checked _ _).mp
      (latest _ _ ((runs _ _).mpr ⟨otherFirst, otherLast, rfl, rfl, other⟩))
  · rintro ⟨index, starts, rfl⟩
    obtain ⟨lastIndex, maximal, latest⟩ := lastStart_iff_lastRun.mp starts
    refine ⟨candidateAt policy lastIndex, (runs _ _).mpr ⟨index, lastIndex, rfl, rfl, maximal⟩, ?_⟩
    intro otherFirst otherLast other
    obtain ⟨firstIndex, otherIndex, rfl, rfl, otherRun⟩ := (runs _ _).mp other
    exact (candidateAt_le_iff checked _ _).mpr (latest _ _ otherRun)

end Blocks

/-! ## Discovery -/

section Discovery

variable {policy : DiscoveryPolicy} (ratio : Nat → Nat)

/-- The batch of price reads, when every one succeeds. -/
def ratiosOf (ratio : Nat → Nat) (blocks : List Nat) : OpenCall (List Nat) :=
  .ok (blocks.map ratio)

theorem Discoverable.of_candidate (checked : CallerChecked policy) {block : Nat}
    (isCandidate : Candidate policy block)
    (small : discoveryPoints policy ≤ maxIncidentOpenDiscoveryPoints) : Discoverable policy := by
  obtain ⟨-, window, above, below⟩ := (candidate_iff checked block).mp isCandidate
  exact ⟨window, above.trans below, small⟩

theorem scan_ok_iff (checked : CallerChecked policy) (fits : PolicyFits policy)
    (discoverable : Discoverable policy) (selection : TwapSelection) :
    scanRatios policy (expectedPlan policy) (sampledRatios ratio policy) = .ok selection ↔
      ∃ index, lastStart (Drops ratio policy) (candidateCount policy) = some index ∧
        selectionAt ratio policy index = selection := by
  rw [scanRatios_eq ratio checked fits discoverable, orRevert_ok_iff, Option.map_eq_some_iff]

/-- Discovery returns the start of the last drop run and the two sums there. -/
theorem discovery_ok_iff (checked : CallerChecked policy) (fits : PolicyFits policy)
    (selection : TwapSelection) :
    discoverIncidentOpenTwap (ratiosOf ratio) policy = .ok selection ↔
      discoveryPoints policy ≤ maxIncidentOpenDiscoveryPoints ∧
        (∃ last, LastDropRun ratio policy selection.referenceBlock last) ∧
        selection.baselineSum = baseline ratio policy selection.referenceBlock ∧
        selection.distressSum = distress ratio policy selection.referenceBlock ∧
        selection.sampleCount = policy.twapBlocks / policy.sampleStepBlocks := by
  have run : discoverIncidentOpenTwap (ratiosOf ratio) policy = .ok selection ↔
      Discoverable policy ∧
        scanRatios policy (expectedPlan policy) (sampledRatios ratio policy) = .ok selection := by
    simp only [discoverIncidentOpenTwap, bind_ok_iff, discoveryPlan_ok_iff checked fits,
      and_assoc, exists_and_left, exists_eq_left, ratiosOf, Except.ok.injEq, exists_eq_left']
    rfl
  rw [run]
  constructor
  · rintro ⟨discoverable, scanned⟩
    obtain ⟨index, starts, rfl⟩ := (scan_ok_iff ratio checked fits discoverable _).mp scanned
    rw [selectionAt_eq ratio checked]
    exact ⟨discoverable.small,
      (lastDropRun_iff ratio checked discoverable _).mpr ⟨index, starts, rfl⟩, rfl, rfl, rfl⟩
  · rintro ⟨small, ⟨last, lastRun⟩, baselineEq, distressEq, samplesEq⟩
    have isCandidate := (lastRun.1.all _ lastRun.1.starts le_rfl lastRun.1.ordered).1
    have discoverable := Discoverable.of_candidate checked isCandidate small
    obtain ⟨index, starts, reference⟩ :=
      (lastDropRun_iff ratio checked discoverable _).mp ⟨last, lastRun⟩
    refine ⟨discoverable, (scan_ok_iff ratio checked fits discoverable _).mpr ⟨index, starts, ?_⟩⟩
    rw [selectionAt_eq ratio checked, ← reference, ← baselineEq, ← distressEq, ← samplesEq]

theorem discovery_avoids (checked : CallerChecked policy) (fits : PolicyFits policy) :
    Avoids IsPanic (discoverIncidentOpenTwap (ratiosOf ratio) policy) := by
  refine avoids_bind _ _ (discoveryPlan_avoids checked fits) fun plan planned => ?_
  obtain ⟨discoverable, rfl⟩ := (discoveryPlan_ok_iff checked fits _).mp planned
  change Avoids IsPanic
    (scanRatios policy (expectedPlan policy) (sampledRatios ratio policy))
  rw [scanRatios_eq ratio checked fits discoverable]
  refine avoids_orRevert _ _ fun _ => ?_
  rintro ⟨reason, same⟩
  cases same

/-- Every sampled block is finalized. -/
theorem expectedPlan_finalized (checked : CallerChecked policy)
    (discoverable : Discoverable policy) :
    ∀ block ∈ (expectedPlan policy).blocks, block ≤ policy.finalizedBlock := by
  intro block member
  obtain ⟨index, inside, rfl⟩ := List.mem_map.mp member
  rw [List.mem_range] at inside
  have finalized := lastCandidate_finalized discoverable.window
  have inChain := twapBlocks_le_firstCandidate checked
  have steps := candidateCount_steps discoverable.nonempty
  have points := discoveryPoints_eq checked discoverable.window discoverable.nonempty
  have most := Nat.mul_le_mul_right policy.sampleStepBlocks inside
  rw [Nat.succ_mul, points, Nat.add_mul, Nat.mul_assoc, checked.windowBlocks] at most
  omega

/-- The outcome depends on the reads of finalized blocks only. -/
theorem discovery_reads_finalized (checked : CallerChecked policy) (fits : PolicyFits policy)
    (first second : List Nat → OpenCall (List Nat))
    (agree : ∀ blocks, (∀ block ∈ blocks, block ≤ policy.finalizedBlock) →
      first blocks = second blocks) :
    discoverIncidentOpenTwap first policy = discoverIncidentOpenTwap second policy := by
  unfold discoverIncidentOpenTwap
  refine bind_congr_ok fun plan planned => ?_
  obtain ⟨discoverable, rfl⟩ := (discoveryPlan_ok_iff checked fits _).mp planned
  rw [agree _ (expectedPlan_finalized checked discoverable)]

theorem discovery_meets_specification (checked : CallerChecked policy)
    (fits : PolicyFits policy) :
    Avoids IsPanic (discoverIncidentOpenTwap (ratiosOf ratio) policy) ∧
    (∀ first second : List Nat → OpenCall (List Nat),
      (∀ blocks, (∀ block ∈ blocks, block ≤ policy.finalizedBlock) →
        first blocks = second blocks) →
      discoverIncidentOpenTwap first policy = discoverIncidentOpenTwap second policy) ∧
    (∀ selection, discoverIncidentOpenTwap (ratiosOf ratio) policy = .ok selection ↔
      discoveryPoints policy ≤ 256 ∧
        (∃ last, LastDropRun ratio policy selection.referenceBlock last) ∧
        selection.baselineSum = baseline ratio policy selection.referenceBlock ∧
        selection.distressSum = distress ratio policy selection.referenceBlock ∧
        selection.sampleCount = policy.twapBlocks / policy.sampleStepBlocks) ∧
    (256 < discoveryPoints policy →
      ∃ error, discoverIncidentOpenTwap (ratiosOf ratio) policy = .error error) := by
  refine ⟨discovery_avoids ratio checked fits, discovery_reads_finalized checked fits,
    discovery_ok_iff ratio checked fits, fun large => ?_⟩
  cases outcome : discoverIncidentOpenTwap (ratiosOf ratio) policy with
  | error error => exact ⟨error, rfl⟩
  | ok selection =>
      have small := ((discovery_ok_iff ratio checked fits selection).mp outcome).1
      exact absurd small (not_le.mpr large)

def smallPolicy : DiscoveryPolicy where
  latestBlock := 200
  finalizedBlock := 200
  maxAge := 100
  twapBlocks := 20
  sampleStepBlocks := 10
  minimumDropBps := 1000

/-- The price halves at block 150. -/
def halving (block : Nat) : Nat := if block < 150 then 100 else 50

theorem smallPolicy_discovers :
    discoverIncidentOpenTwap (ratiosOf halving) smallPolicy = .ok ⟨130, 200, 150, 2⟩ ∧
      ∃ last, LastDropRun halving smallPolicy 130 last := by
  have checked : CallerChecked smallPolicy :=
    ⟨by decide, by decide, by decide, by decide, by decide, by decide⟩
  have fits : PolicyFits smallPolicy := ⟨by decide, by decide⟩
  have found : discoverIncidentOpenTwap (ratiosOf halving) smallPolicy =
      .ok ⟨130, 200, 150, 2⟩ := by decide
  exact ⟨found, (((discovery_meets_specification halving checked fits).2.2.1 _).mp found).2.1⟩

end Discovery

end Usd8Core.Engine
