import Mathlib.Data.Nat.Basic
import Mathlib.Tactic.Common

/-!
# Calls that ask an oracle

A call asks a stateful oracle whatever it needs and ends with a value or an
error; the oracle keeps its state either way.  `Ends` bounds both ends of a call
against every state of the oracle, so it holds for every sequence of answers.
-/

set_option autoImplicit false

namespace Usd8Core.Lib.OracleCall

variable {σ ε ε' α β : Type}

/-- A call over an oracle with the state `σ`. -/
abbrev Asking (σ ε α : Type) := ExceptT ε (StateM σ) α

/-- The outcome of a call and the state it leaves. -/
def runFrom (call : Asking σ ε α) (start : σ) : Except ε α × σ :=
  (ExceptT.run call).run start

/-- A result that needs no oracle. -/
def liftResult (result : Except ε α) : Asking σ ε α :=
  ExceptT.mk (pure result)

/-- One question to the oracle. -/
def ask (question : σ → Except ε α × σ) : Asking σ ε α :=
  ExceptT.mk question

/-- The call with its errors as values, where `caught` takes them. -/
def attempt (caught : ε → Option ε') (call : Asking σ ε α) : Asking σ ε (Except ε' α) :=
  ask fun start =>
    match runFrom call start with
    | (.ok value, last) => (.ok (.ok value), last)
    | (.error error, last) =>
        match caught error with
        | some error' => (.ok (.error error'), last)
        | none => (.error error, last)

/-- The call with another error for its error. -/
def mapFailure (change : ε → ε') (call : Asking σ ε α) : Asking σ ε' α :=
  ask fun start => ((runFrom call start).1.mapError change, (runFrom call start).2)

section Runs

variable (start : σ)

@[simp] theorem runFrom_pure (value : α) :
    runFrom (pure value : Asking σ ε α) start = (.ok value, start) := rfl

@[simp] theorem runFrom_throw (error : ε) :
    runFrom (throw error : Asking σ ε α) start = (.error error, start) := rfl

@[simp] theorem runFrom_liftResult (result : Except ε α) :
    runFrom (liftResult result) start = (result, start) := rfl

@[simp] theorem runFrom_ask (question : σ → Except ε α × σ) :
    runFrom (ask question) start = question start := rfl

theorem runFrom_bind (call : Asking σ ε α) (next : α → Asking σ ε β) :
    runFrom (call >>= next) start = match runFrom call start with
      | (.ok value, middle) => runFrom (next value) middle
      | (.error error, middle) => (.error error, middle) := by
  simp only [runFrom, ExceptT.run_bind, StateT.run_bind]
  cases (ExceptT.run call).run start with
  | mk result middle => cases result <;> rfl

end Runs

/-- Both ends of a call, from every state. -/
def Ends (post : α → Prop) (failed : ε → Prop) (call : Asking σ ε α) : Prop :=
  ∀ start, match (runFrom call start).1 with
    | .ok value => post value
    | .error error => failed error

section Rules

variable {post : α → Prop} {failed : ε → Prop} {call : Asking σ ε α}

theorem Ends.value (ends : Ends post failed call) {start last : σ} {value : α}
    (run : runFrom call start = (.ok value, last)) : post value := by
  simpa [run] using ends start

theorem Ends.ok_value (ends : Ends post failed call) {start : σ} {value : α}
    (run : (runFrom call start).1 = .ok value) : post value := by
  simpa [run] using ends start

theorem Ends.error (ends : Ends post failed call) {start last : σ} {error : ε}
    (run : runFrom call start = (.error error, last)) : failed error := by
  simpa [run] using ends start

theorem Ends.mono {post' : α → Prop} {failed' : ε → Prop} (ends : Ends post failed call)
    (values : ∀ value, post value → post' value) (errors : ∀ error, failed error → failed' error) :
    Ends post' failed' call := by
  intro start
  have first := ends start
  cases outcome : (runFrom call start).1 with
  | ok value => exact values value (by simpa [outcome] using first)
  | error error => exact errors error (by simpa [outcome] using first)

theorem ends_pure {value : α} (holds : post value) :
    Ends post failed (pure value : Asking σ ε α) :=
  fun _ => holds

theorem ends_throw {error : ε} (holds : failed error) :
    Ends post failed (throw error : Asking σ ε α) :=
  fun _ => holds

theorem ends_liftResult {result : Except ε α} (values : ∀ value, result = .ok value → post value)
    (errors : ∀ error, result = .error error → failed error) :
    Ends post failed (liftResult result : Asking σ ε α) := by
  intro start
  cases result with
  | ok value => exact values value rfl
  | error error => exact errors error rfl

/-- What follows a call knows what the call ended with. -/
theorem Ends.bind {next : α → Asking σ ε β} {last : β → Prop} (ends : Ends post failed call)
    (follows : ∀ value, post value → Ends last failed (next value)) :
    Ends last failed (call >>= next) := by
  intro start
  have first := ends start
  rw [runFrom_bind]
  cases outcome : runFrom call start with
  | mk result middle =>
      rw [outcome] at first
      cases result with
      | ok value => exact follows value first middle
      | error error => exact first

theorem ends_ite {condition : Prop} [Decidable condition] {other : Asking σ ε α}
    (yes : condition → Ends post failed call) (no : ¬ condition → Ends post failed other) :
    Ends post failed (if condition then call else other) := by
  split
  · exact yes ‹_›
  · exact no ‹_›

theorem Ends.mapFailure {failed' : ε' → Prop} {change : ε → ε'} (ends : Ends post failed call)
    (errors : ∀ error, failed error → failed' (change error)) :
    Ends post failed' (mapFailure change call) := by
  intro start
  have first := ends start
  rw [OracleCall.mapFailure, runFrom_ask]
  cases outcome : (runFrom call start).1 with
  | ok value => simpa [outcome, Except.mapError] using first
  | error error => exact errors error (by simpa [outcome] using first)

theorem Ends.attempt {caught : ε → Option ε'} {last : Except ε' α → Prop}
    (ends : Ends post failed call) (values : ∀ value, post value → last (.ok value))
    (errors : ∀ error error', failed error → caught error = some error' → last (.error error')) :
    Ends last failed (attempt caught call) := by
  intro start
  have first := ends start
  rw [OracleCall.attempt, runFrom_ask]
  cases outcome : runFrom call start with
  | mk result middle =>
      rw [outcome] at first
      cases result with
      | ok value => exact values value first
      | error error =>
          cases isCaught : caught error with
          | none => simpa [isCaught] using first
          | some error' => simpa [isCaught] using errors error error' first isCaught

theorem ends_true {call : Asking σ ε α} : Ends (fun _ => True) (fun _ => True) call := by
  intro start
  cases (runFrom call start).1 with
  | ok value => trivial
  | error error => trivial

theorem ends_mapM {γ : Type} {post : γ → α → Prop} {step : γ → Asking σ ε α} (items : List γ)
    (each : ∀ item ∈ items, Ends (post item) failed (step item)) :
    Ends (fun values => List.Forall₂ post items values) failed (items.mapM step) := by
  induction items with
  | nil => exact ends_pure .nil
  | cons item rest ih =>
      rw [List.mapM_cons]
      refine (each item List.mem_cons_self).bind fun value first => ?_
      refine (ih fun other member => each other (List.mem_cons_of_mem _ member)).bind
        fun values later => ?_
      exact ends_pure (.cons first later)

theorem ends_foldlM {γ : Type} {kept : α → Prop} {step : α → γ → Asking σ ε α} (items : List γ)
    (each : ∀ item ∈ items, ∀ state, kept state → Ends kept failed (step state item)) {start : α}
    (holds : kept start) : Ends kept failed (items.foldlM step start) := by
  induction items generalizing start with
  | nil => exact ends_pure holds
  | cons item rest ih =>
      rw [List.foldlM_cons]
      exact (each item List.mem_cons_self start holds).bind fun next later =>
        ih (fun other member => each other (List.mem_cons_of_mem _ member)) later

end Rules

end Usd8Core.Lib.OracleCall
