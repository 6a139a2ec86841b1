import Mathlib.Algebra.BigOperators.Intervals
import Mathlib.Order.Interval.Finset.Nat

/-!
# Sliding windows and maximal runs

A window sum moves on by the value that leaves and the one that enters.  Of the
indices below a count that satisfy a predicate, the last maximal run is the one
that the last start of a run begins.
-/

set_option autoImplicit false

namespace Usd8Core.Lib.WindowScan

/-! ## Window sums -/

section Windows

variable (value : Nat → Nat) (start length : Nat)

/-- The sum of `length` values from `start` on. -/
def windowSum : Nat := ∑ k ∈ Finset.range length, value (start + k)

@[simp] theorem windowSum_zero : windowSum value start 0 = 0 := Finset.sum_range_zero _

theorem windowSum_succ :
    windowSum value start (length + 1) =
      windowSum value start length + value (start + length) :=
  Finset.sum_range_succ _ _

theorem windowSum_succ_left :
    windowSum value start (length + 1) =
      value start + windowSum value (start + 1) length := by
  unfold windowSum
  rw [Finset.sum_range_succ', Nat.add_comm]
  congr 1
  apply Finset.sum_congr rfl
  intro k _
  congr 1
  omega

theorem le_windowSum (positive : 0 < length) : value start ≤ windowSum value start length := by
  obtain ⟨shorter, rfl⟩ := Nat.exists_eq_add_of_lt positive
  rw [Nat.zero_add, windowSum_succ_left]
  exact Nat.le_add_right _ _

/-- The window moves on by one. -/
theorem windowSum_slide (positive : 0 < length) :
    windowSum value start length - value start + value (start + length) =
      windowSum value (start + 1) length := by
  have left := windowSum_succ value start length
  have right := windowSum_succ_left value start length
  have part := le_windowSum value start length positive
  omega

theorem sum_take_drop (values : List Nat) (inside : start + length ≤ values.length)
    (reads : ∀ index, index < values.length → values[index]? = some (value index)) :
    ((values.drop start).take length).sum = windowSum value start length := by
  induction length with
  | zero => simp
  | succ length ih =>
      rw [List.take_add_one, List.sum_append, ih (by omega), windowSum_succ, List.getElem?_drop,
        reads _ (by omega)]
      simp

end Windows

/-! ## Maximal runs -/

section Runs

variable (holds : Nat → Prop) (count : Nat)

def StartsRun (index : Nat) : Prop := holds index ∧ ¬ (0 < index ∧ holds (index - 1))

instance [DecidablePred holds] (index : Nat) : Decidable (StartsRun holds index) :=
  inferInstanceAs (Decidable (_ ∧ _))

/-- The indices from `first` to `last` satisfy the predicate, and no longer run does. -/
structure MaximalRun (first last : Nat) : Prop where
  ordered : first ≤ last
  inside : last < count
  all : ∀ index, first ≤ index → index ≤ last → holds index
  before : ¬ (0 < first ∧ holds (first - 1))
  after : ¬ (last + 1 < count ∧ holds (last + 1))

def LastRun (first last : Nat) : Prop :=
  MaximalRun holds count first last ∧
    ∀ otherFirst otherLast, MaximalRun holds count otherFirst otherLast → otherLast ≤ last

/-- The last index below `count` that starts a run. -/
def lastStart [DecidablePred holds] : Nat → Option Nat
  | 0 => none
  | count + 1 => if StartsRun holds count then some count else lastStart count

variable {holds count} {first last : Nat}

theorem MaximalRun.starts (run : MaximalRun holds count first last) : StartsRun holds first :=
  ⟨run.all first le_rfl run.ordered, run.before⟩

/-- Every start begins a maximal run. -/
theorem StartsRun.run (starts : StartsRun holds first) (inside : first < count) :
    ∃ last, MaximalRun holds count first last := by
  classical
  have ends : ∃ stop, first < stop ∧ (stop = count ∨ ¬ holds stop) := ⟨count, inside, .inl rfl⟩
  obtain ⟨later, reason⟩ := Nat.find_spec ends
  have all : ∀ index, first ≤ index → index < Nat.find ends → holds index := by
    intro index reached below
    rcases Nat.eq_or_lt_of_le reached with rfl | after
    · exact starts.1
    · have earlier := Nat.find_min ends below
      by_contra fails
      exact earlier ⟨after, .inr fails⟩
  have within : Nat.find ends ≤ count := Nat.find_min' ends ⟨inside, .inl rfl⟩
  refine ⟨Nat.find ends - 1, by omega, by omega, fun index reached below => all index reached (by omega),
    starts.2, ?_⟩
  have next : Nat.find ends - 1 + 1 = Nat.find ends := by omega
  rw [next]
  rintro ⟨below, continues⟩
  rcases reason with reached | fails
  · omega
  · exact fails continues

theorem lastStart_eq_some [DecidablePred holds] :
    lastStart holds count = some first ↔
      first < count ∧ StartsRun holds first ∧
        ∀ index, index < count → StartsRun holds index → index ≤ first := by
  induction count with
  | zero => simp [lastStart]
  | succ count ih =>
      unfold lastStart
      split
      next starts =>
        constructor
        · intro same
          cases same
          exact ⟨Nat.lt_succ_self _, starts, fun index below _ => Nat.le_of_lt_succ below⟩
        · rintro ⟨below, -, latest⟩
          have above := latest count (Nat.lt_succ_self _) starts
          rw [Option.some.injEq]
          omega
      next notStart =>
        rw [ih]
        constructor
        · rintro ⟨below, starts, latest⟩
          refine ⟨below.trans (Nat.lt_succ_self _), starts, fun index within starting => ?_⟩
          rcases Nat.lt_or_eq_of_le (Nat.le_of_lt_succ within) with earlier | rfl
          · exact latest index earlier starting
          · exact absurd starting notStart
        · rintro ⟨below, starts, latest⟩
          have differ : first ≠ count := by
            rintro rfl
            exact notStart starts
          exact ⟨by omega, starts, fun index within => latest index (by omega)⟩

/-- The last start begins the last maximal run. -/
theorem lastStart_iff_lastRun [DecidablePred holds] :
    lastStart holds count = some first ↔ ∃ last, LastRun holds count first last := by
  rw [lastStart_eq_some]
  constructor
  · rintro ⟨below, starts, latest⟩
    obtain ⟨last, run⟩ := starts.run below
    refine ⟨last, run, fun otherFirst otherLast other => ?_⟩
    by_contra longer
    have reached := latest otherFirst (by have := other.ordered; have := other.inside; omega)
      other.starts
    have continues := other.all (last + 1) (by have := run.ordered; omega) (by omega)
    exact run.after ⟨by have := other.inside; omega, continues⟩
  · rintro ⟨last, run, latest⟩
    have below := run.inside
    refine ⟨by have := run.ordered; omega, run.starts, fun index within starts => ?_⟩
    obtain ⟨stop, other⟩ := starts.run within
    have reaches := latest index stop other
    have ordered := other.ordered
    by_contra later
    exact starts.2 ⟨by omega, run.all (index - 1) (by omega) (by omega)⟩

end Runs

end Usd8Core.Lib.WindowScan
