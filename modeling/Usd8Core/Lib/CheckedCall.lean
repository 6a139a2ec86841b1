import Mathlib.Algebra.GroupWithZero.Nat
import Mathlib.Data.List.Forall2
import Mathlib.Data.Nat.Basic
import Mathlib.Tactic.Common

/-!
# Calls that revert and checked machine arithmetic

A call either returns a value or reverts with an error and no effect.  The
rules below take a successful call apart statement by statement, and bound the
errors a call can end with.  Unsigned machine integers are naturals; every
operation that can leave the word is a call of its own.
-/

set_option autoImplicit false

namespace Usd8Core.Lib.CheckedCall

/-- The compiler's own reverts. -/
inductive Panic where
  | overflow
  | underflow
  | divisionByZero
  | indexOutOfBounds
  deriving DecidableEq

/-- An error type the compiler's reverts embed into. -/
class HasPanic (ε : Type) where
  panic : Panic → ε

section Calls

variable {ε : Type} {α β : Type}

/-- `if (condition) revert error;` -/
def revertIf (condition : Prop) [Decidable condition] (error : ε) : Except ε Unit :=
  if condition then .error error else .ok ()

theorem bind_ok_iff (call : Except ε α) (next : α → Except ε β) (result : β) :
    (call >>= next) = .ok result ↔
      ∃ value, call = .ok value ∧ next value = .ok result := by
  cases call <;> simp [Bind.bind, Except.bind]

theorem mapError_ok_iff {ε' : Type} (wrap : ε → ε') (call : Except ε α) (result : α) :
    call.mapError wrap = .ok result ↔ call = .ok result := by
  cases call <;> simp [Except.mapError]

theorem bind_error_iff (call : Except ε α) (next : α → Except ε β) (error : ε) :
    (call >>= next) = .error error ↔
      call = .error error ∨ ∃ value, call = .ok value ∧ next value = .error error := by
  cases call <;> simp [Bind.bind, Except.bind]

/-- Two continuations that agree on what the first call returns. -/
theorem bind_congr_ok {call : Except ε α} {next other : α → Except ε β}
    (same : ∀ value, call = .ok value → next value = other value) :
    (call >>= next) = (call >>= other) := by
  cases call with
  | error error => rfl
  | ok value => exact same value rfl

/-- What follows a call that returned. -/
theorem bind_after {call : Except ε α} {value : α} (ran : call = .ok value)
    (next : α → Except ε β) : (call >>= next) = next value := by
  rw [ran]
  rfl

theorem pure_ok_iff (value result : α) :
    (pure value : Except ε α) = .ok result ↔ value = result := by
  simp [pure, Except.pure]

theorem ok_of_toOption {ε α : Type} {call : Except ε α} {value : α}
    (given : call.toOption = some value) : call = .ok value := by
  cases call with
  | ok result => exact congrArg Except.ok (Option.some.inj given)
  | error error => cases given

theorem exists_ok_of_isSome {ε α : Type} (call : Except ε α)
    (succeeds : call.toOption.isSome = true) : ∃ value, call = .ok value := by
  obtain ⟨value, given⟩ := Option.isSome_iff_exists.mp succeeds
  exact ⟨value, ok_of_toOption given⟩

theorem revertIf_ok_iff (condition : Prop) [Decidable condition] (error : ε)
    (result : Unit) :
    revertIf condition error = .ok result ↔ ¬ condition := by
  unfold revertIf
  split <;> simp_all

theorem ite_ok_iff (condition : Prop) [Decidable condition]
    (first second : Except ε α) (result : α) :
    (if condition then first else second) = .ok result ↔
      (condition ∧ first = .ok result) ∨ (¬ condition ∧ second = .ok result) := by
  split <;> simp_all

/-- The value of an optional read, or a revert. -/
def orRevert (value : Option α) (error : ε) : Except ε α :=
  match value with
  | some present => .ok present
  | none => .error error

theorem orRevert_ok_iff (value : Option α) (error : ε) (result : α) :
    orRevert value error = .ok result ↔ value = some result := by
  cases value <;> simp [orRevert]

end Calls

/-! ## Which errors a call can end with -/

section Avoids

variable {ε : Type} {α β : Type} {bad : ε → Prop}

/-- The call does not end with a `bad` error. -/
def Avoids (bad : ε → Prop) (call : Except ε α) : Prop :=
  ∀ error, call = .error error → ¬ bad error

theorem avoids_ok (value : α) : Avoids bad (.ok value : Except ε α) := by
  intro error impossible
  cases impossible

theorem avoids_pure (value : α) : Avoids bad (pure value : Except ε α) :=
  avoids_ok value

theorem avoids_error (error : ε) (harmless : ¬ bad error) :
    Avoids bad (.error error : Except ε α) := by
  intro actual same
  cases same
  exact harmless

theorem avoids_bind (call : Except ε α) (next : α → Except ε β)
    (first : Avoids bad call)
    (second : ∀ value, call = .ok value → Avoids bad (next value)) :
    Avoids bad (call >>= next) := by
  intro error failed
  rcases (bind_error_iff call next error).mp failed with failed | ⟨value, ran, failed⟩
  · exact first error failed
  · exact second value ran error failed

/-- A check whose error is harmless: what follows runs only past the check. -/
theorem avoids_revertIf_bind (condition : Prop) [Decidable condition] (error : ε)
    (next : Unit → Except ε β) (harmless : condition → ¬ bad error)
    (rest : ¬ condition → Avoids bad (next ())) :
    Avoids bad (revertIf condition error >>= next) := by
  apply avoids_bind
  · intro actual failed
    unfold revertIf at failed
    split at failed
    · cases failed
      exact harmless ‹_›
    · cases failed
  · intro value passed
    exact rest ((revertIf_ok_iff condition error value).mp passed)

theorem avoids_revertIf (condition : Prop) [Decidable condition] (error : ε)
    (harmless : condition → ¬ bad error) :
    Avoids bad (revertIf condition error) := by
  intro actual failed
  unfold revertIf at failed
  split at failed
  · cases failed
    exact harmless ‹_›
  · cases failed

theorem avoids_ite (condition : Prop) [Decidable condition]
    (first second : Except ε α)
    (whenTrue : condition → Avoids bad first)
    (whenFalse : ¬ condition → Avoids bad second) :
    Avoids bad (if condition then first else second) := by
  split
  · exact whenTrue ‹_›
  · exact whenFalse ‹_›

theorem avoids_orRevert (value : Option α) (error : ε)
    (harmless : value = none → ¬ bad error) : Avoids bad (orRevert value error) := by
  cases value with
  | none => exact avoids_error error (harmless rfl)
  | some present => exact avoids_ok present

end Avoids

/-! ## What a call returns -/

section Returns

variable {ε : Type} {α β : Type} {post : β → Prop}

/-- Whatever the call returns satisfies `post`. -/
def Returns (post : β → Prop) (call : Except ε β) : Prop :=
  ∀ result, call = .ok result → post result

theorem returns_pure {value : β} (holds : post value) :
    Returns post (pure value : Except ε β) := by
  intro result returned
  cases (pure_ok_iff _ _).mp returned
  exact holds

theorem returns_bind {call : Except ε α} {next : α → Except ε β}
    (rest : ∀ value, call = .ok value → Returns post (next value)) :
    Returns post (call >>= next) := by
  intro result ran
  obtain ⟨value, first, second⟩ := (bind_ok_iff _ _ _).mp ran
  exact rest value first result second

end Returns

/-! ## Loops -/

section Loops

variable {ε : Type} {σ : Type} {α : Type}

/-- A loop body's invariant holds at the end of every completed loop. -/
theorem foldlM_preserves (body : σ → α → Except ε σ) (invariant : σ → Prop)
    (preserved : ∀ state item next, invariant state →
      body state item = .ok next → invariant next) :
    ∀ (items : List α) (state final : σ), invariant state →
      items.foldlM body state = .ok final → invariant final := by
  intro items
  induction items with
  | nil =>
      intro state final holds run
      rw [List.foldlM_nil, pure_ok_iff] at run
      subst final
      exact holds
  | cons item rest ih =>
      intro state final holds run
      rw [List.foldlM_cons, bind_ok_iff] at run
      obtain ⟨next, step, run⟩ := run
      exact ih next final (preserved state item next holds step) run

/-- As `foldlM_preserves`, when the body is only known to keep the invariant at
items of the list. -/
theorem foldlM_preserves_mem (body : σ → α → Except ε σ) (invariant : σ → Prop) :
    ∀ (items : List α),
      (∀ item ∈ items, ∀ state next, invariant state →
        body state item = .ok next → invariant next) →
      ∀ (state final : σ), invariant state →
        items.foldlM body state = .ok final → invariant final := by
  intro items
  induction items with
  | nil =>
      intro preserved state final holds run
      rw [List.foldlM_nil, pure_ok_iff] at run
      subst final
      exact holds
  | cons item rest ih =>
      intro preserved state final holds run
      rw [List.foldlM_cons, bind_ok_iff] at run
      obtain ⟨next, step, run⟩ := run
      have holdsNext := preserved item (by simp) state next holds step
      apply ih _ next final holdsNext run
      intro later member
      exact preserved later (by simp [member])

/-- What is known of the items done so far, kept up to date by every iteration. -/
theorem foldlM_tracks (body : σ → α → Except ε σ) (tracks : List α → σ → Prop)
    (step : ∀ done state item next, tracks done state →
      body state item = .ok next → tracks (done ++ [item]) next) :
    ∀ (items done : List α) (state final : σ), tracks done state →
      items.foldlM body state = .ok final → tracks (done ++ items) final := by
  intro items
  induction items with
  | nil =>
      intro done state final holds run
      rw [List.foldlM_nil, pure_ok_iff] at run
      subst final
      rwa [List.append_nil]
  | cons item rest ih =>
      intro done state final holds run
      rw [List.foldlM_cons, bind_ok_iff] at run
      obtain ⟨next, ran, run⟩ := run
      have tracked := ih (done ++ [item]) next final (step done state item next holds ran) run
      rwa [List.append_assoc] at tracked

/-- A relation kept by every iteration and composed along the loop. -/
theorem foldlM_relates (body : σ → α → Except ε σ) (relation : σ → σ → Prop)
    (reflexive : ∀ state, relation state state)
    (transitive : ∀ first second third, relation first second →
      relation second third → relation first third)
    (step : ∀ state item next, body state item = .ok next → relation state next) :
    ∀ (items : List α) (state final : σ),
      items.foldlM body state = .ok final → relation state final := by
  intro items state final run
  refine foldlM_preserves body (relation state) ?_ items state final
    (reflexive state) run
  intro middle item next related ran
  exact transitive state middle next related (step middle item next ran)

theorem mapM_ok_iff {β : Type} (body : α → Except ε β) : ∀ (items : List α) (results : List β),
    items.mapM body = .ok results ↔
      List.Forall₂ (fun item result => body item = .ok result) items results := by
  intro items
  induction items with
  | nil =>
      intro results
      rw [List.mapM_nil, pure_ok_iff, List.forall₂_nil_left_iff, eq_comm]
  | cons item rest ih =>
      intro results
      rw [List.mapM_cons, bind_ok_iff, List.forall₂_cons_left_iff]
      constructor
      · rintro ⟨result, first, run⟩
        obtain ⟨others, run, whole⟩ := (bind_ok_iff _ _ _).mp run
        exact ⟨result, others, first, (ih others).mp run, ((pure_ok_iff _ _).mp whole).symm⟩
      · rintro ⟨result, others, first, run, whole⟩
        refine ⟨result, first, (bind_ok_iff _ _ _).mpr ⟨others, (ih others).mpr run, ?_⟩⟩
        rw [whole, pure_ok_iff]

theorem exists_right_of_mem {β : Type} {related : α → β → Prop} {items : List α} {others : List β}
    (matched : List.Forall₂ related items others) {item : α} (member : item ∈ items) :
    ∃ other ∈ others, related item other := by
  induction matched with
  | nil => cases member
  | cons first rest ih =>
      rcases List.mem_cons.mp member with rfl | later
      · exact ⟨_, List.mem_cons_self, first⟩
      · obtain ⟨other, isOther, relates⟩ := ih later
        exact ⟨other, List.mem_cons_of_mem _ isOther, relates⟩

theorem exists_left_of_mem {β : Type} {related : α → β → Prop} {items : List α} {others : List β}
    (matched : List.Forall₂ related items others) {other : β} (member : other ∈ others) :
    ∃ item ∈ items, related item other :=
  exists_right_of_mem matched.flip member

/-- Every result of a loop is that of an item. -/
theorem exists_of_mapM_ok {β : Type} {body : α → Except ε β} {items : List α} {results : List β}
    (run : items.mapM body = .ok results) {result : β} (member : result ∈ results) :
    ∃ item ∈ items, body item = .ok result :=
  exists_left_of_mem ((mapM_ok_iff body items results).mp run) member

/-- A loop over the items and their numbers has one result for each item. -/
theorem mapM_zipIdx_ok {β : Type} (body : α × Nat → Except ε β) (items : List α)
    (results : List β) (run : items.zipIdx.mapM body = .ok results) :
    results.length = items.length ∧ ∀ (index : Nat) (item : α), items[index]? = some item →
      ∃ result, results[index]? = some result ∧ body (item, index) = .ok result := by
  have each := (mapM_ok_iff body _ _).mp run
  have lengths : results.length = items.length := by
    rw [← each.length_eq, List.length_zipIdx]
  refine ⟨lengths, ?_⟩
  intro index item atIndex
  have inside : index < results.length := by
    rw [lengths]
    exact (List.getElem?_eq_some_iff.mp atIndex).1
  refine ⟨results[index], List.getElem?_eq_getElem inside, ?_⟩
  have paired := each.get (i := index) (by rw [each.length_eq]; exact inside) inside
  simpa [List.getElem?_eq_some_iff.mp atIndex |>.2] using paired

/-- What one iteration achieves for its item and later ones do not undo holds of every
item at the end. -/
theorem foldlM_achieves (body : σ → α → Except ε σ) (invariant : σ → Prop)
    (achieved : α → σ → Prop)
    (preserved : ∀ state item next, invariant state →
      body state item = .ok next → invariant next)
    (achieves : ∀ state item next, invariant state →
      body state item = .ok next → achieved item next)
    (lasting : ∀ done state item next, invariant state → achieved done state →
      body state item = .ok next → achieved done next) :
    ∀ (items : List α) (state final : σ), invariant state →
      items.foldlM body state = .ok final → ∀ item ∈ items, achieved item final := by
  intro items
  induction items with
  | nil => intro state final holds run item member; cases member
  | cons first rest ih =>
      intro state final holds run item member
      rw [List.foldlM_cons, bind_ok_iff] at run
      obtain ⟨next, step, run⟩ := run
      have holdsNext := preserved state first next holds step
      rcases List.mem_cons.mp member with rfl | later
      · have both := foldlM_preserves body (fun s => invariant s ∧ achieved item s)
          (fun s other after kept ran => ⟨preserved s other after kept.1 ran,
            lasting item s other after kept.1 kept.2 ran⟩) rest next final
          ⟨holdsNext, achieves state item next holds step⟩ run
        exact both.2
      · exact ih next final holdsNext run item later

/-- A loop whose body keeps an invariant at the items of the list and is safe under it. -/
theorem avoids_foldlM_mem {bad : ε → Prop} (body : σ → α → Except ε σ) (invariant : σ → Prop) :
    ∀ (items : List α),
      (∀ item ∈ items, ∀ state next, invariant state →
        body state item = .ok next → invariant next) →
      (∀ item ∈ items, ∀ state, invariant state → Avoids bad (body state item)) →
      ∀ (state : σ), invariant state → Avoids bad (items.foldlM body state) := by
  intro items
  induction items with
  | nil =>
      intro _ _ state _
      exact avoids_pure state
  | cons item rest ih =>
      intro preserved safe state holds
      rw [List.foldlM_cons]
      apply avoids_bind
      · exact safe item List.mem_cons_self state holds
      · intro next ran
        exact ih (fun later inside => preserved later (List.mem_cons_of_mem _ inside))
          (fun later inside => safe later (List.mem_cons_of_mem _ inside)) next
          (preserved item List.mem_cons_self state next holds ran)

/-- A loop whose body is safe under an invariant that it keeps. -/
theorem avoids_foldlM {bad : ε → Prop} (body : σ → α → Except ε σ) (invariant : σ → Prop)
    (preserved : ∀ state item next, invariant state →
      body state item = .ok next → invariant next)
    (safe : ∀ state item, invariant state → Avoids bad (body state item))
    (items : List α) (state : σ) (holds : invariant state) :
    Avoids bad (items.foldlM body state) :=
  avoids_foldlM_mem body invariant items (fun item _ state next => preserved state item next)
    (fun item _ state => safe state item) state holds

/-- A loop over `0..count` whose body succeeds under an invariant on the rounds done. -/
theorem foldlM_range_ok (body : σ → Nat → Except ε σ) (invariant : Nat → σ → Prop) (count : Nat)
    (step : ∀ round state, round < count → invariant round state →
      ∃ next, body state round = .ok next ∧ invariant (round + 1) next)
    (state : σ) (initially : invariant 0 state) :
    ∃ final, (List.range count).foldlM body state = .ok final ∧ invariant count final := by
  induction count with
  | zero => exact ⟨state, rfl, initially⟩
  | succ count ih =>
      obtain ⟨middle, ran, holds⟩ :=
        ih fun round state below => step round state (Nat.lt_succ_of_lt below)
      obtain ⟨final, last, after⟩ := step count middle (Nat.lt_succ_self count) holds
      refine ⟨final, ?_, after⟩
      rw [List.range_succ, List.foldlM_append, ran]
      refine (bind_ok_iff _ _ _).mpr ⟨middle, rfl, ?_⟩
      rw [List.foldlM_cons]
      exact (bind_ok_iff _ _ _).mpr ⟨final, last, rfl⟩

end Loops

/-! ## Checked arithmetic -/

section Arithmetic

variable {ε : Type} [HasPanic ε]

open HasPanic

/-- The number of values of an unsigned machine integer. -/
def uintBound (width : Nat) : Nat := 2 ^ width

def checkedAdd (width a b : Nat) : Except ε Nat :=
  if a + b < uintBound width then .ok (a + b) else .error (panic .overflow)

def checkedSub (a b : Nat) : Except ε Nat :=
  if b ≤ a then .ok (a - b) else .error (panic .underflow)

def checkedMul (width a b : Nat) : Except ε Nat :=
  if a * b < uintBound width then .ok (a * b) else .error (panic .overflow)

def checkedDiv (a b : Nat) : Except ε Nat :=
  if b = 0 then .error (panic .divisionByZero) else .ok (a / b)

/-- `Math.mulDiv`: the product is exact, only the quotient has to fit. -/
def mulDiv (a b denominator : Nat) : Except ε Nat :=
  if denominator = 0 then .error (panic .divisionByZero)
  else if a * b / denominator < uintBound 256 then .ok (a * b / denominator)
  else .error (panic .overflow)

/-- `Math.mulDiv` with `Rounding.Ceil`. -/
def mulDivUp (a b denominator : Nat) : Except ε Nat := do
  let floor ← mulDiv a b denominator
  checkedAdd 256 floor (if a * b % denominator > 0 then 1 else 0)

/-- `Math.ceilDiv`. -/
def ceilDiv (a b : Nat) : Except ε Nat :=
  if b = 0 then .error (panic .divisionByZero)
  else .ok (if a = 0 then 0 else (a - 1) / b + 1)

/-- A truncating conversion such as `uint64(x)`. -/
def truncate (width value : Nat) : Nat := value % uintBound width

/-- `u64::MAX` -/
def maxU64 : Nat := 2 ^ 64 - 1

/-- `saturating_add` of `u64`. -/
def saturatingAdd (a b : Nat) : Nat := min (a + b) maxU64

/-- `Math.mul512`: the high and the low word of a product. -/
def mul512 (a b : Nat) : Nat × Nat := (a * b / uintBound 256, a * b % uintBound 256)

theorem uintBound_pos (width : Nat) : 0 < uintBound width := Nat.two_pow_pos width

theorem checkedAdd_ok_iff (width a b result : Nat) :
    (checkedAdd width a b : Except ε Nat) = .ok result ↔
      a + b < uintBound width ∧ result = a + b := by
  unfold checkedAdd
  split
  · simp_all [eq_comm]
  · rename_i outside
    simp [outside]

theorem checkedSub_ok_iff (a b result : Nat) :
    (checkedSub a b : Except ε Nat) = .ok result ↔ b ≤ a ∧ result = a - b := by
  unfold checkedSub
  split
  · simp_all [eq_comm]
  · rename_i outside
    simp [outside]

theorem checkedMul_ok_iff (width a b result : Nat) :
    (checkedMul width a b : Except ε Nat) = .ok result ↔
      a * b < uintBound width ∧ result = a * b := by
  unfold checkedMul
  split
  · simp_all [eq_comm]
  · rename_i outside
    simp [outside]

theorem checkedDiv_ok_iff (a b result : Nat) :
    (checkedDiv a b : Except ε Nat) = .ok result ↔ b ≠ 0 ∧ result = a / b := by
  unfold checkedDiv
  split <;> simp_all [eq_comm]

theorem mulDiv_ok_iff (a b denominator result : Nat) :
    (mulDiv a b denominator : Except ε Nat) = .ok result ↔
      denominator ≠ 0 ∧ a * b / denominator < uintBound 256 ∧
        result = a * b / denominator := by
  unfold mulDiv
  split
  · simp_all
  · split
    · simp_all [eq_comm]
    · rename_i outside
      simp [outside]

theorem mulDivUp_ok_iff (a b denominator result : Nat) :
    (mulDivUp a b denominator : Except ε Nat) = .ok result ↔
      denominator ≠ 0 ∧
        a * b / denominator + (if a * b % denominator > 0 then 1 else 0) < uintBound 256 ∧
        result = a * b / denominator + (if a * b % denominator > 0 then 1 else 0) := by
  unfold mulDivUp
  rw [bind_ok_iff]
  constructor
  · rintro ⟨floor, quotient, added⟩
    obtain ⟨positive, -, rfl⟩ := (mulDiv_ok_iff a b denominator floor).mp quotient
    obtain ⟨bound, rfl⟩ := (checkedAdd_ok_iff _ _ _ _).mp added
    exact ⟨positive, bound, rfl⟩
  · rintro ⟨positive, bound, rfl⟩
    refine ⟨a * b / denominator, ?_, ?_⟩
    · exact (mulDiv_ok_iff a b denominator _).mpr ⟨positive, by omega, rfl⟩
    · exact (checkedAdd_ok_iff _ _ _ _).mpr ⟨bound, rfl⟩

theorem ceilDiv_ok_iff (a b result : Nat) :
    (ceilDiv a b : Except ε Nat) = .ok result ↔
      b ≠ 0 ∧ result = (if a = 0 then 0 else (a - 1) / b + 1) := by
  unfold ceilDiv
  split <;> simp_all [eq_comm]

/-! The only errors of the checked operations. -/

section Errors

variable {bad : ε → Prop}

theorem checkedAdd_error {width a b : Nat} {error : ε}
    (failed : checkedAdd width a b = .error error) : error = panic .overflow := by
  unfold checkedAdd at failed
  split at failed
  · cases failed
  · exact (Except.error.inj failed).symm

theorem avoids_checkedAdd (width a b : Nat) (harmless : ¬ bad (panic .overflow)) :
    Avoids bad (checkedAdd width a b) := by
  unfold checkedAdd
  split
  · exact avoids_ok _
  · exact avoids_error _ harmless

theorem avoids_checkedMul (width a b : Nat) (harmless : ¬ bad (panic .overflow)) :
    Avoids bad (checkedMul width a b) := by
  unfold checkedMul
  split
  · exact avoids_ok _
  · exact avoids_error _ harmless

theorem avoids_checkedSub (a b : Nat) (harmless : a < b → ¬ bad (panic .underflow)) :
    Avoids bad (checkedSub a b) := by
  unfold checkedSub
  split
  · exact avoids_ok _
  · rename_i below
    exact avoids_error _ (harmless (Nat.lt_of_not_le below))

theorem avoids_checkedDiv (a b : Nat) (harmless : b = 0 → ¬ bad (panic .divisionByZero)) :
    Avoids bad (checkedDiv a b) := by
  unfold checkedDiv
  split
  · exact avoids_error _ (harmless ‹_›)
  · exact avoids_ok _

theorem avoids_mulDiv (a b denominator : Nat)
    (nonzero : denominator = 0 → ¬ bad (panic .divisionByZero))
    (harmless : ¬ bad (panic .overflow)) : Avoids bad (mulDiv a b denominator) := by
  unfold mulDiv
  split
  · exact avoids_error _ (nonzero ‹_›)
  · split
    · exact avoids_ok _
    · exact avoids_error _ harmless

end Errors

theorem truncate_eq_self {width value : Nat} (fits : value < uintBound width) :
    truncate width value = value := Nat.mod_eq_of_lt fits

theorem truncate_le (width value : Nat) : truncate width value ≤ value := Nat.mod_le _ _

theorem truncate_lt (width value : Nat) : truncate width value < uintBound width :=
  Nat.mod_lt _ (uintBound_pos width)

/-- Products compare as their words do, the high ones first. -/
theorem mul512_lt_iff (a b c d : Nat) :
    ((mul512 a b).1 < (mul512 c d).1 ∨
        (mul512 a b).1 = (mul512 c d).1 ∧ (mul512 a b).2 < (mul512 c d).2) ↔
      a * b < c * d := by
  simp only [mul512]
  have left := Nat.div_add_mod (a * b) (uintBound 256)
  have right := Nat.div_add_mod (c * d) (uintBound 256)
  have leftLow := Nat.mod_lt (a * b) (uintBound_pos 256)
  have rightLow := Nat.mod_lt (c * d) (uintBound_pos 256)
  generalize a * b / uintBound 256 = leftHigh at *
  generalize c * d / uintBound 256 = rightHigh at *
  generalize a * b % uintBound 256 = leftWord at *
  generalize c * d % uintBound 256 = rightWord at *
  generalize uintBound 256 = base at *
  constructor
  · rintro (higher | ⟨same, lower⟩)
    · have above := Nat.mul_le_mul_left base higher
      rw [Nat.mul_succ] at above
      omega
    · subst same
      omega
  · intro below
    rcases Nat.lt_trichotomy leftHigh rightHigh with higher | same | less
    · exact Or.inl higher
    · subst same
      exact Or.inr ⟨rfl, by omega⟩
    · have above := Nat.mul_le_mul_left base less
      rw [Nat.mul_succ] at above
      omega

end Arithmetic

end Usd8Core.Lib.CheckedCall
