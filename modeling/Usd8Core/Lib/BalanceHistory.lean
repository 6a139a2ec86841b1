import Usd8Core.Lib.EventLog
import Mathlib.Algebra.BigOperators.Group.List.Basic
import Mathlib.Algebra.GroupWithZero.Nat
import Mathlib.Order.Bounds.Basic

/-!
# Balances along a history of moves

Every event of a history moves amounts between accounts.  The balances that an
account held in a window are the one before it and those after the events that touch
the account; adding up what came in and what went out of the account at each event
gives the same balances, without looking at any other account.
-/

set_option autoImplicit false

namespace Usd8Core.Lib.BalanceHistory

open Usd8Core.Lib.EventLog

structure Move (A : Type) where
  sender : A
  recipient : A
  amount : Nat
  deriving DecidableEq

variable {A E : Type} [DecidableEq A]

/-- What came into an account and what went out of it. -/
def inflow (account : A) (moves : List (Move A)) : Nat :=
  ((moves.filter fun move => move.recipient = account).map Move.amount).sum

def outflow (account : A) (moves : List (Move A)) : Nat :=
  ((moves.filter fun move => move.sender = account).map Move.amount).sum

theorem inflow_cons (account : A) (move : Move A) (rest : List (Move A)) :
    inflow account (move :: rest) =
      (if move.recipient = account then move.amount else 0) + inflow account rest := by
  by_cases isRecipient : move.recipient = account <;> simp [inflow, isRecipient]

theorem outflow_cons (account : A) (move : Move A) (rest : List (Move A)) :
    outflow account (move :: rest) =
      (if move.sender = account then move.amount else 0) + outflow account rest := by
  by_cases isSender : move.sender = account <;> simp [outflow, isSender]

/-! ## Books -/

section Books

variable (void : A)

/-- Nothing is taken from `void` and nothing is given to it: a move from it mints, a
move to it burns. -/
def debit (book : A → Nat) (account : A) (amount : Nat) : A → Nat :=
  if account = void then book else Function.update book account (book account - amount)

def credit (book : A → Nat) (account : A) (amount : Nat) : A → Nat :=
  if account = void then book else Function.update book account (book account + amount)

def Move.apply (book : A → Nat) (move : Move A) : A → Nat :=
  credit void (debit void book move.sender move.amount) move.recipient move.amount

def Move.Covered (book : A → Nat) (move : Move A) : Prop :=
  move.sender = void ∨ move.amount ≤ book move.sender

def applyMoves (book : A → Nat) (moves : List (Move A)) : A → Nat :=
  moves.foldl (Move.apply void) book

/-- Every move finds its amount with its sender. -/
def Covered : (A → Nat) → List (Move A) → Prop
  | _, [] => True
  | book, move :: rest => move.Covered void book ∧ Covered (move.apply void book) rest

variable {void}

theorem apply_flow {book : A → Nat} {move : Move A} (covered : move.Covered void book)
    {account : A} (kept : account ≠ void) :
    move.apply void book account + (if move.sender = account then move.amount else 0) =
      book account + if move.recipient = account then move.amount else 0 := by
  have debited : debit void book move.sender move.amount account +
      (if move.sender = account then move.amount else 0) = book account := by
    by_cases isSender : move.sender = account
    · subst isSender
      have enough := covered.resolve_left kept
      simp [debit, kept, enough]
    · by_cases isVoid : move.sender = void <;>
        simp [debit, isVoid, isSender, Ne.symm isSender, Ne.symm kept]
  rw [← debited]
  by_cases isRecipient : move.recipient = account
  · subst isRecipient
    simp only [Move.apply, credit, if_neg kept, Function.update_self, if_pos]
    omega
  · by_cases isVoid : move.recipient = void <;>
      simp [Move.apply, credit, isVoid, isRecipient, Ne.symm isRecipient, Ne.symm kept]

theorem apply_void (book : A → Nat) (move : Move A) : move.apply void book void = book void := by
  have debited (amount : Nat) (account : A) : debit void book account amount void = book void := by
    by_cases isVoid : account = void
    · simp [debit, isVoid]
    · simp [debit, isVoid, Ne.symm isVoid]
  by_cases isVoid : move.recipient = void
  · simp [Move.apply, credit, isVoid, debited]
  · simp [Move.apply, credit, isVoid, debited, Ne.symm isVoid]

/-- Over the moves of an event an account changes by what came in less what went out. -/
theorem applyMoves_flow {account : A} (kept : account ≠ void) (moves : List (Move A))
    (book : A → Nat) (covered : Covered void book moves) :
    applyMoves void book moves account + outflow account moves =
      book account + inflow account moves := by
  induction moves generalizing book with
  | nil => rfl
  | cons move rest ih =>
      have first := apply_flow covered.1 kept
      have later := ih (move.apply void book) covered.2
      have step : applyMoves void book (move :: rest) =
        applyMoves void (move.apply void book) rest := rfl
      rw [step, outflow_cons, inflow_cons]
      omega

theorem applyMoves_void (moves : List (Move A)) (book : A → Nat) :
    applyMoves void book moves void = book void := by
  induction moves generalizing book with
  | nil => rfl
  | cons move rest ih => exact (ih _).trans (apply_void book move)

end Books

/-! ## Histories -/

section Histories

variable (void : A) (moves : E → List (Move A))

/-- The book after a list of events. -/
def bookAfter (book : A → Nat) (events : List E) : A → Nat :=
  events.foldl (fun current event => applyMoves void current (moves event)) book

/-- Every move of the history is covered when it happens. -/
def WellFormed (book : A → Nat) (events : List E) : Prop :=
  ∀ before event, Occurs events before event →
    Covered void (bookAfter void moves book before) (moves event)

/-- The balances that an account held in a window: the one that it came with, and those
after the events that touch it. -/
def Held (book : A → Nat) (window : List E) (touches : E → Prop) (account : A) : Set Nat :=
  { balance | balance = book account ∨ ∃ before event, Occurs window before event ∧
    touches event ∧ balance = bookAfter void moves book (before ++ [event]) account }

/-- The balances that replaying what came in and went out gives. -/
def replayed (balance : Nat) : List (Nat × Nat) → List Nat
  | [] => []
  | (came, went) :: rest => (balance + came - went) :: replayed (balance + came - went) rest

variable {void moves}

theorem bookAfter_append (book : A → Nat) (before after : List E) :
    bookAfter void moves book (before ++ after) =
      bookAfter void moves (bookAfter void moves book before) after :=
  List.foldl_append

theorem bookAfter_void (book : A → Nat) (events : List E) :
    bookAfter void moves book events void = book void := by
  induction events generalizing book with
  | nil => rfl
  | cons event rest ih => exact (ih _).trans (applyMoves_void _ book)

theorem occurs_cons_iff {event head : E} {window before : List E} :
    Occurs (head :: window) before event ↔
      (before = [] ∧ event = head) ∨ ∃ rest, before = head :: rest ∧ Occurs window rest event := by
  cases before with
  | nil => simp [Occurs, eq_comm]
  | cons first rest => simp [Occurs, List.cons_prefix_cons, eq_comm, and_assoc]

theorem wellFormed_cons_iff {book : A → Nat} {event : E} {rest : List E} :
    WellFormed void moves book (event :: rest) ↔ Covered void book (moves event) ∧
      WellFormed void moves (applyMoves void book (moves event)) rest := by
  constructor
  · intro wellFormed
    refine ⟨wellFormed [] event (occurs_cons_iff.mpr (.inl ⟨rfl, rfl⟩)), ?_⟩
    intro before later occurs
    exact wellFormed (event :: before) later (occurs_cons_iff.mpr (.inr ⟨before, rfl, occurs⟩))
  · rintro ⟨first, later⟩ before event occurs
    rcases occurs_cons_iff.mp occurs with ⟨rfl, rfl⟩ | ⟨between, rfl, inside⟩
    · exact first
    · exact later between event inside

theorem WellFormed.append {book : A → Nat} {past window : List E}
    (wellFormed : WellFormed void moves book (past ++ window)) :
    WellFormed void moves (bookAfter void moves book past) window := by
  induction past generalizing book with
  | nil => exact wellFormed
  | cons event rest ih => exact ih (wellFormed_cons_iff.mp wellFormed).2

/-- Every event keeps `void` as it is. -/
theorem held_void (book : A → Nat) (window : List E) (touches : E → Prop) :
    Held void moves book window touches void = {book void} := by
  ext balance
  constructor
  · rintro (same | ⟨before, event, -, -, same⟩)
    · exact same
    · exact same.trans (bookAfter_void book _)
  · exact .inl

/-- The first event of a window splits what was held in it. -/
theorem mem_held_cons {book : A → Nat} {event : E} {rest : List E} {touches : E → Prop}
    {account : A} {balance : Nat}
    (untouched : ¬ touches event → applyMoves void book (moves event) account = book account) :
    balance ∈ Held void moves book (event :: rest) touches account ↔
      balance = book account ∨
        balance ∈ Held void moves (applyMoves void book (moves event)) rest touches account := by
  constructor
  · rintro (same | ⟨before, later, occurs, touched, same⟩)
    · exact .inl same
    · right
      rcases occurs_cons_iff.mp occurs with ⟨rfl, rfl⟩ | ⟨between, rfl, inside⟩
      · exact .inl same
      · exact .inr ⟨between, later, inside, touched, same⟩
  · rintro (same | same | ⟨before, later, occurs, touched, same⟩)
    · exact .inl same
    · by_cases touched : touches event
      · exact .inr ⟨[], event, occurs_cons_iff.mpr (.inl ⟨rfl, rfl⟩), touched, same⟩
      · exact .inl (same.trans (untouched touched))
    · exact .inr ⟨event :: before, later, occurs_cons_iff.mpr (.inr ⟨before, rfl, occurs⟩), touched,
        same⟩

/-- Replaying the events that change the account gives what it held. -/
theorem held_eq_replayed {account : A} (kept : account ≠ void) {touches : E → Prop}
    (untouched : ∀ event, ¬ touches event →
      inflow account (moves event) = 0 ∧ outflow account (moves event) = 0)
    (counted : E → Bool)
    (uncounted : ∀ event, counted event = false →
      inflow account (moves event) = outflow account (moves event))
    (window : List E) (book : A → Nat) (wellFormed : WellFormed void moves book window) :
    Held void moves book window touches account =
      { balance | balance = book account ∨ balance ∈ replayed (book account)
        ((window.filter counted).map fun event =>
          (inflow account (moves event), outflow account (moves event))) } := by
  induction window generalizing book with
  | nil =>
      ext balance
      simp [Held, replayed, Occurs]
  | cons event rest ih =>
      have flow := applyMoves_flow kept (moves event) book (wellFormed_cons_iff.mp wellFormed).1
      have same : ¬ touches event → applyMoves void book (moves event) account = book account := by
        intro untouchedEvent
        obtain ⟨nothingIn, nothingOut⟩ := untouched event untouchedEvent
        omega
      have later := ih _ (wellFormed_cons_iff.mp wellFormed).2
      ext balance
      rw [mem_held_cons same, later]
      cases isCounted : counted event with
      | true =>
          have next : applyMoves void book (moves event) account =
              book account + inflow account (moves event) - outflow account (moves event) := by
            omega
          simp [isCounted, replayed, next]
      | false =>
          have level := uncounted event isCounted
          have next : applyMoves void book (moves event) account = book account := by omega
          simp [isCounted, next]

end Histories

end Usd8Core.Lib.BalanceHistory
