import Usd8Core.Lib.CheckedCall
import Mathlib.Algebra.BigOperators.Intervals

/-!
# The score accumulator

An account's score state carries the rate segments it has left behind, scaled and
weighted, and the integral of the balance over the segment it is in.  Advancing
integrates the balance block by block, segment after segment; a segment's integral
is scaled once, when the state leaves the segment or when it is projected.
-/

set_option autoImplicit false

namespace Usd8Core.Score

open Usd8Core.Lib.CheckedCall

def scoreScale : Nat := 10 ^ 18

structure RatePoint where
  fromBlock : Nat
  rate : Nat
  deriving DecidableEq

structure AccountScoreState where
  balance : Nat
  lastBlock : Nat
  completedNumerator : Nat
  activeSegmentFrom : Option Nat
  activeIntegral : Nat
  deriving DecidableEq

/-- A state that has not accumulated anything yet. -/
def AccountScoreState.fresh (balance lastBlock : Nat) : AccountScoreState :=
  ⟨balance, lastBlock, 0, none, 0⟩

inductive ScoreCoreError where
  | ratesNotAscending
  | backward (fromBlock toBlock : Nat)
  | missingRate (fromBlock : Nat)
  | balanceUnderflow (block : Nat)
  deriving DecidableEq

abbrev ScoreCall := Except ScoreCoreError

def Ascending (rates : List RatePoint) : Prop :=
  rates.IsChain fun first second => first.fromBlock < second.fromBlock

instance (rates : List RatePoint) : Decidable (Ascending rates) :=
  inferInstanceAs (Decidable (List.IsChain _ _))

def validateRates (rates : List RatePoint) : ScoreCall Unit :=
  revertIf (¬ Ascending rates) .ratesNotAscending

def scaledIntegral (integral decimals : Nat) : Nat :=
  if decimals ≤ 18 then integral * 10 ^ (18 - decimals) else integral / 10 ^ (decimals - 18)

def rateFor (rates : List RatePoint) (fromBlock : Nat) : ScoreCall Nat :=
  orRevert ((rates.find? fun point => point.fromBlock == fromBlock).map RatePoint.rate)
    (.missingRate fromBlock)

def finalizeActive (state : AccountScoreState) (rates : List RatePoint) (decimals : Nat) :
    ScoreCall AccountScoreState :=
  match state.activeSegmentFrom with
  | none => pure state
  | some fromBlock => do
      let rate ← rateFor rates fromBlock
      pure { state with
        completedNumerator :=
          state.completedNumerator + scaledIntegral state.activeIntegral decimals * rate
        activeSegmentFrom := none
        activeIntegral := 0 }

/-- The points of the rate list, each with the block at which the next one starts. -/
def segments : List RatePoint → List (RatePoint × Option Nat)
  | [] => []
  | point :: rest => (point, rest.head?.map RatePoint.fromBlock) :: segments rest

/-- Where a segment ends, seen from `toBlock`. -/
def overlapTo (next : Option Nat) (toBlock : Nat) : Nat :=
  match next with
  | some next => min next toBlock
  | none => toBlock

/-- One iteration of the loop over the rate points. -/
def advanceSegment (rates : List RatePoint) (decimals toBlock : Nat) (state : AccountScoreState)
    (segment : RatePoint × Option Nat) : ScoreCall AccountScoreState :=
  let (point, next) := segment
  let overlapFrom := max state.lastBlock point.fromBlock
  if overlapTo next toBlock ≤ overlapFrom then pure state
  else do
    let state ← (if state.activeSegmentFrom ≠ some point.fromBlock then do
        let state ← finalizeActive state rates decimals
        pure { state with activeSegmentFrom := some point.fromBlock, activeIntegral := 0 }
      else pure state)
    let state := { state with
      activeIntegral :=
        state.activeIntegral + state.balance * (overlapTo next toBlock - overlapFrom) }
    if next.any fun next => overlapTo (some next) toBlock == next && next ≤ toBlock then
      finalizeActive state rates decimals
    else pure state

def advanceAccount (state : AccountScoreState) (toBlock : Nat) (rates : List RatePoint)
    (decimals : Nat) : ScoreCall AccountScoreState := do
  validateRates rates
  revertIf (toBlock < state.lastBlock) (.backward state.lastBlock toBlock)
  if toBlock = state.lastBlock then pure state
  else do
    let state ← (segments rates).foldlM (advanceSegment rates decimals toBlock) state
    pure { state with lastBlock := toBlock }

def applyTransfer (state : AccountScoreState) (block inflow outflow : Nat)
    (rates : List RatePoint) (decimals : Nat) : ScoreCall AccountScoreState := do
  let state ← advanceAccount state block rates decimals
  if outflow ≤ inflow then pure { state with balance := state.balance + (inflow - outflow) }
  else do
    let decrease := outflow - inflow
    revertIf (state.balance < decrease) (.balanceUnderflow block)
    pure { state with balance := state.balance - decrease }

def projectedNumerator (state : AccountScoreState) (toBlock : Nat) (rates : List RatePoint)
    (decimals : Nat) : ScoreCall Nat := do
  let projected ← advanceAccount state toBlock rates decimals
  match projected.activeSegmentFrom with
  | none => pure projected.completedNumerator
  | some fromBlock => do
      let rate ← rateFor rates fromBlock
      pure (projected.completedNumerator +
        scaledIntegral projected.activeIntegral decimals * rate)

def grossScore (numerator : Nat) : Nat := numerator / scoreScale

/-! ## The segments of a rate list -/

section Segments

variable {rates : List RatePoint} {decimals : Nat}

/-- The later of two segments starts at the end of the earlier one or after it. -/
def Follows (earlier later : RatePoint × Option Nat) : Prop :=
  ∃ next, earlier.2 = some next ∧ earlier.1.fromBlock < next ∧ next ≤ later.1.fromBlock

theorem segments_points (rates : List RatePoint) : (segments rates).map Prod.fst = rates := by
  induction rates with
  | nil => rfl
  | cons point rest ih => simp [segments, ih]

theorem mem_of_segment {segment : RatePoint × Option Nat} (member : segment ∈ segments rates) :
    segment.1 ∈ rates := by
  rw [← segments_points rates]
  exact List.mem_map_of_mem member

theorem Ascending.head_lt {point : RatePoint} (ascending : Ascending (point :: rates)) :
    ∀ later ∈ rates, point.fromBlock < later.fromBlock := by
  have pairwise := List.isChain_iff_pairwise.mp ascending
  exact (List.pairwise_cons.mp pairwise).1

theorem Ascending.tail {point : RatePoint} (ascending : Ascending (point :: rates)) :
    Ascending rates := List.IsChain.tail ascending

theorem segments_follow (ascending : Ascending rates) : (segments rates).Pairwise Follows := by
  induction rates with
  | nil => exact .nil
  | cons point rest ih =>
      refine .cons ?_ (ih ascending.tail)
      intro later member
      cases rest with
      | nil => cases member
      | cons second rest =>
          refine ⟨second.fromBlock, rfl, ascending.head_lt second List.mem_cons_self, ?_⟩
          rcases List.mem_cons.mp (mem_of_segment member) with same | below
          · rw [same]
          · exact (ascending.tail.head_lt later.1 below).le

theorem rateFor_segment (ascending : Ascending rates) {segment : RatePoint × Option Nat}
    (member : segment ∈ segments rates) :
    rateFor rates segment.1.fromBlock = .ok segment.1.rate := by
  have point := mem_of_segment member
  clear member
  unfold rateFor
  rw [orRevert_ok_iff]
  induction rates with
  | nil => cases point
  | cons first rest ih =>
      rcases List.mem_cons.mp point with same | later
      · simp [same]
      · have differ : first.fromBlock ≠ segment.1.fromBlock :=
          (ascending.head_lt segment.1 later).ne
        simp [differ, ih ascending.tail later]

/-- Points that start later do not change a lookup. -/
theorem rateFor_known {more : List RatePoint} {block fromBlock : Nat}
    (later : ∀ point ∈ more, block < point.fromBlock) (early : fromBlock ≤ block) :
    rateFor (rates ++ more) fromBlock = rateFor rates fromBlock := by
  have absent : (more.find? fun point => point.fromBlock == fromBlock) = none := by
    rw [List.find?_eq_none]
    intro point member
    have after := later point member
    simp
    omega
  unfold rateFor
  rw [List.find?_append, absent, Option.or_none]

end Segments

end Usd8Core.Score
