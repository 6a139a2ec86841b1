import Usd8Core.Lib.CheckedCall
import Mathlib.Data.List.Induction

/-!
# Runs of a machine whose steps can revert

A run is the list of its transitions, newest last.  A reverted step leaves the
state as it was and does not appear.
-/

set_option autoImplicit false

namespace Usd8Core.Lib.TraceRun

variable {σ τ ε : Type}

/-- A completed step: the state before it, the action and the state after it. -/
structure Transition (σ τ : Type) where
  before : σ
  action : τ
  after : σ

/-- The transitions lead from `start` to the last state, one step after another. -/
inductive IsRun (step : σ → τ → Except ε σ) (start : σ) : List (Transition σ τ) → σ → Prop
  | nil : IsRun step start [] start
  | snoc (steps : List (Transition σ τ)) (middle : σ) (action : τ) (final : σ)
      (run : IsRun step start steps middle) (last : step middle action = .ok final) :
      IsRun step start (steps ++ [⟨middle, action, final⟩]) final

variable {step : σ → τ → Except ε σ} {start final : σ} {steps : List (Transition σ τ)}

/-- What holds at the start and survives every step holds at the end. -/
theorem IsRun.invariant (holds : σ → Prop) (initially : holds start)
    (kept : ∀ state action next, holds state → step state action = .ok next → holds next)
    (run : IsRun step start steps final) : holds final := by
  induction run with
  | nil => exact initially
  | snoc steps middle action final run last ih => exact kept middle action final ih last

/-- A reflexive and transitive relation that every step respects relates the ends. -/
theorem IsRun.relates (relation : σ → σ → Prop) (reflexive : ∀ state, relation state state)
    (transitive : ∀ first second third, relation first second → relation second third →
      relation first third)
    (respected : ∀ state action next, step state action = .ok next → relation state next)
    (run : IsRun step start steps final) : relation start final := by
  induction run with
  | nil => exact reflexive start
  | snoc steps middle action final run last ih =>
      exact transitive start middle final ih (respected middle action final last)

theorem IsRun.append {middle : σ} {later : List (Transition σ τ)}
    (first : IsRun step start steps middle) (second : IsRun step middle later final) :
    IsRun step start (steps ++ later) final := by
  induction second with
  | nil => simpa using first
  | snoc later state action final run last ih =>
      rw [← List.append_assoc]
      exact .snoc (steps ++ later) state action final ih last

theorem IsRun.single {state next : σ} {action : τ} (ran : step state action = .ok next) :
    IsRun step state [⟨state, action, next⟩] next :=
  .snoc [] state action next .nil ran

theorem IsRun.nil_inv (run : IsRun step start [] final) : final = start := by
  generalize empty : ([] : List (Transition σ τ)) = all at run
  cases run with
  | nil => rfl
  | snoc steps middle action final run last => simp at empty

/-- The last step of a run. -/
theorem IsRun.snoc_inv {t : Transition σ τ} (run : IsRun step start (steps ++ [t]) final) :
    IsRun step start steps t.before ∧ step t.before t.action = .ok t.after ∧
      t.after = final := by
  generalize whole : steps ++ [t] = all at run
  cases run with
  | nil => simp at whole
  | snoc steps middle action final run last =>
      obtain ⟨sameSteps, sameLast⟩ := List.append_inj' whole rfl
      subst sameSteps
      cases List.singleton_inj.mp sameLast
      exact ⟨run, last, rfl⟩

/-- A run can be cut at any place. -/
theorem IsRun.split (before later : List (Transition σ τ))
    (run : IsRun step start (before ++ later) final) :
    ∃ middle, IsRun step start before middle ∧ IsRun step middle later final := by
  induction later using List.reverseRecOn generalizing final with
  | nil => exact ⟨final, by simpa using run, .nil⟩
  | append_singleton later last ih =>
      rw [← List.append_assoc] at run
      obtain ⟨run, ran, same⟩ := run.snoc_inv
      obtain ⟨middle, first, second⟩ := ih run
      subst same
      exact ⟨middle, first, .snoc later last.before last.action last.after second ran⟩

/-- The step in the middle of a run, with the runs on both sides of it. -/
theorem IsRun.split_at (before later : List (Transition σ τ)) (t : Transition σ τ)
    (run : IsRun step start (before ++ t :: later) final) :
    IsRun step start before t.before ∧ step t.before t.action = .ok t.after ∧
      IsRun step t.after later final := by
  have joined : before ++ t :: later = (before ++ [t]) ++ later := by simp
  rw [joined] at run
  obtain ⟨middle, first, second⟩ := run.split
  obtain ⟨earlier, ran, same⟩ := first.snoc_inv
  subst same
  exact ⟨earlier, ran, second⟩

/-! ## Executed runs -/

/-- Run the actions one after another, keeping the transitions, newest last. -/
def execute (step : σ → τ → Except ε σ) (state : σ) :
    List τ → Except ε (List (Transition σ τ) × σ)
  | [] => .ok ([], state)
  | action :: later => do
      let next ← step state action
      let (steps, final) ← execute step next later
      pure (⟨state, action, next⟩ :: steps, final)

theorem IsRun.cons {state next : σ} {action : τ} (ran : step state action = .ok next)
    (run : IsRun step next steps final) :
    IsRun step state (⟨state, action, next⟩ :: steps) final := by
  simpa using (IsRun.single ran).append run

theorem execute_isRun (actions : List τ)
    (ran : execute step start actions = .ok (steps, final)) : IsRun step start steps final := by
  induction actions generalizing start steps with
  | nil =>
      simp only [execute, Except.ok.injEq, Prod.mk.injEq] at ran
      obtain ⟨rfl, rfl⟩ := ran
      exact .nil
  | cons action later ih =>
      simp only [execute, CheckedCall.bind_ok_iff, CheckedCall.pure_ok_iff] at ran
      obtain ⟨next, first, ⟨rest, last⟩, second, same⟩ := ran
      cases same
      exact IsRun.cons first (ih second)

/-- Whether the actions run to an end that passes the check. -/
def endsIn (step : σ → τ → Except ε σ) (start : σ) (actions : List τ)
    (check : List (Transition σ τ) → σ → Bool) : Bool :=
  match execute step start actions with
  | .ok (steps, final) => check steps final
  | .error _ => false

theorem endsIn_isRun (actions : List τ) (check : List (Transition σ τ) → σ → Bool)
    (passed : endsIn step start actions check = true) :
    ∃ steps final, IsRun step start steps final ∧ check steps final = true := by
  unfold endsIn at passed
  split at passed
  next steps final ran => exact ⟨steps, final, execute_isRun actions ran, passed⟩
  next => cases passed

end Usd8Core.Lib.TraceRun
