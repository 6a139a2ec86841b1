import Mathlib.Data.List.Induction
import Mathlib.Data.List.Pairwise
import Mathlib.Tactic.Common

/-!
# Sliding-window limits

Admissions in order of time, each granted only while fewer than a limit of earlier ones
lie within the window that ends with it.  Then no window of that width holds more than
the limit, wherever it starts.
-/

set_option autoImplicit false

namespace Usd8Core.Lib.RateWindow

/-- The times that are at most `width` before `now`. -/
def recent (width now : Nat) (times : List Nat) : List Nat :=
  times.filter fun time => decide (now - time ≤ width)

/-- The times in the closed window of the width from `start` on. -/
def within (width start : Nat) (times : List Nat) : List Nat :=
  times.filter fun time => decide (start ≤ time ∧ time ≤ start + width)

/-- Times in order, each within the limit when it was admitted. -/
inductive Admitted (width limit : Nat) : List Nat → Prop
  | nil : Admitted width limit []
  | snoc (times : List Nat) (now : Nat) (earlier : Admitted width limit times)
      (ordered : ∀ time ∈ times, time ≤ now) (free : (recent width now times).length < limit) :
      Admitted width limit (times ++ [now])

variable {width limit : Nat} {times : List Nat}

theorem Admitted.ordered (admitted : Admitted width limit times) : times.Pairwise (· ≤ ·) := by
  induction admitted with
  | nil => exact List.Pairwise.nil
  | snoc times now earlier below free ih =>
      apply List.pairwise_append.mpr
      refine ⟨ih, List.pairwise_singleton _ _, ?_⟩
      intro time member last isLast
      rw [List.mem_singleton.mp isLast]
      exact below time member

/-- What lies in a window that `now` falls into is recent at `now`. -/
theorem within_length_le_recent (start now : Nat) (inside : now ≤ start + width) :
    (within width start times).length ≤ (recent width now times).length := by
  rw [within, recent, ← List.countP_eq_length_filter, ← List.countP_eq_length_filter]
  apply List.countP_mono_left
  intro time _ isWithin
  simp only [decide_eq_true_eq] at isWithin ⊢
  omega

theorem Admitted.within_le (admitted : Admitted width limit times) (start : Nat) :
    (within width start times).length ≤ limit := by
  induction admitted with
  | nil => exact Nat.zero_le _
  | snoc times now earlier below free ih =>
      simp only [within, List.filter_append, List.length_append] at ih ⊢
      by_cases inside : start ≤ now ∧ now ≤ start + width
      · have fewer : (within width start times).length ≤ (recent width now times).length :=
          within_length_le_recent start now inside.2
        simp only [within] at fewer
        rw [List.filter_cons_of_pos (by simpa using inside)]
        simp only [List.filter_nil, List.length_singleton]
        omega
      · rw [List.filter_cons_of_neg (by simpa using inside)]
        simpa using ih

/-- Forgetting what was not recent earlier loses nothing that is recent later. -/
theorem recent_recent (earlier later : Nat) (order : earlier ≤ later) :
    recent width later (recent width earlier times) = recent width later times := by
  rw [recent, recent, List.filter_filter, recent]
  apply List.filter_congr
  intro time _
  rw [Bool.eq_iff_iff]
  simp only [Bool.and_eq_true, decide_eq_true_eq]
  constructor
  · rintro ⟨isRecent, -⟩
    exact isRecent
  · intro isRecent
    exact ⟨isRecent, by omega⟩

theorem recent_append (now : Nat) (more : List Nat) :
    recent width now (times ++ more) = recent width now times ++ recent width now more :=
  List.filter_append ..

end Usd8Core.Lib.RateWindow
