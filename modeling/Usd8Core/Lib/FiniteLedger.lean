import Mathlib.Algebra.BigOperators.Group.Finset.Basic
import Mathlib.Algebra.BigOperators.Group.Finset.Piecewise
import Mathlib.Algebra.Order.BigOperators.Group.Finset
import Mathlib.Tactic.Ring

/-!
# Balances over a finite set of accounts

A ledger is a function from accounts to naturals.  Moving an amount keeps the
total, lowers only the payer and raises only the payee; a sum over accounts
changes at the one account that was written.
-/

set_option autoImplicit false

namespace Usd8Core.Lib.FiniteLedger

open Finset

variable {A : Type} [DecidableEq A]

/-- Debit the payer, then credit the payee; the two may be one account. -/
def moveBalance (balances : A → Nat) (payer payee : A) (amount : Nat) : A → Nat :=
  let debited := Function.update balances payer (balances payer - amount)
  Function.update debited payee (debited payee + amount)

theorem moveBalance_of_ne (balances : A → Nat) (payer payee account : A) (amount : Nat)
    (notPayer : account ≠ payer) (notPayee : account ≠ payee) :
    moveBalance balances payer payee amount account = balances account := by
  simp [moveBalance, Function.update_of_ne notPayee, Function.update_of_ne notPayer]

theorem moveBalance_payee (balances : A → Nat) (payer payee : A) (amount : Nat)
    (differ : payee ≠ payer) :
    moveBalance balances payer payee amount payee = balances payee + amount := by
  simp [moveBalance, Function.update_of_ne differ]

theorem moveBalance_payer (balances : A → Nat) (payer payee : A) (amount : Nat)
    (differ : payer ≠ payee) :
    moveBalance balances payer payee amount payer = balances payer - amount := by
  simp [moveBalance, Function.update_of_ne differ]

theorem moveBalance_self (balances : A → Nat) (account : A) (amount : Nat)
    (enough : amount ≤ balances account) :
    moveBalance balances account account amount account = balances account := by
  simp [moveBalance, enough]

/-- Only the payer can lose. -/
theorem le_moveBalance (balances : A → Nat) (payer payee account : A) (amount : Nat)
    (notPayer : account ≠ payer) :
    balances account ≤ moveBalance balances payer payee amount account := by
  by_cases isPayee : account = payee
  · subst isPayee
    rw [moveBalance_payee balances payer account amount notPayer]
    omega
  · rw [moveBalance_of_ne balances payer payee account amount notPayer isPayee]

/-- No account loses more than the amount. -/
theorem le_moveBalance_add (balances : A → Nat) (payer payee account : A) (amount : Nat)
    (enough : amount ≤ balances payer) :
    balances account ≤ moveBalance balances payer payee amount account + amount := by
  by_cases isPayer : account = payer
  · subst isPayer
    by_cases isPayee : account = payee
    · subst isPayee
      rw [moveBalance_self balances account amount enough]
      omega
    · rw [moveBalance_payer balances account payee amount isPayee]
      omega
  · have kept := le_moveBalance balances payer payee account amount isPayer
    omega

/-- What every account has after a transfer. -/
theorem moveBalance_flow (balances : A → Nat) (payer payee account : A) (amount : Nat)
    (enough : amount ≤ balances payer) :
    moveBalance balances payer payee amount account + (if account = payer then amount else 0) =
      balances account + if account = payee then amount else 0 := by
  by_cases isPayer : account = payer
  · subst isPayer
    by_cases isPayee : account = payee
    · subst isPayee
      rw [moveBalance_self balances account amount enough]
    · rw [moveBalance_payer balances account payee amount isPayee, if_pos rfl, if_neg isPayee]
      omega
  · by_cases isPayee : account = payee
    · subst isPayee
      simp [moveBalance_payee balances payer account amount isPayer, isPayer]
    · simp [moveBalance_of_ne balances payer payee account amount isPayer isPayee, isPayer, isPayee]

/-! ## Sums that change at one account -/

/-- Two families that differ at one account at most. -/
theorem sum_differ_at {accounts : Finset A} (before after : A → Nat) (account : A)
    (member : account ∈ accounts)
    (agree : ∀ other ∈ accounts, other ≠ account → after other = before other) :
    (∑ a ∈ accounts, after a) + before account =
      (∑ a ∈ accounts, before a) + after account := by
  have rest : ∑ a ∈ accounts.erase account, after a =
      ∑ a ∈ accounts.erase account, before a := by
    apply Finset.sum_congr rfl
    intro other otherMember
    exact agree other (Finset.mem_of_mem_erase otherMember)
      (Finset.ne_of_mem_erase otherMember)
  have splitAfter := Finset.sum_erase_add accounts after member
  have splitBefore := Finset.sum_erase_add accounts before member
  omega

/-- The same for a list of distinct accounts. -/
theorem list_sum_differ_at {accounts : List A} (before after : A → Nat) (account : A)
    (distinct : accounts.Nodup) (member : account ∈ accounts)
    (agree : ∀ other ∈ accounts, other ≠ account → after other = before other) :
    (accounts.map after).sum + before account = (accounts.map before).sum + after account := by
  rw [← List.sum_toFinset after distinct, ← List.sum_toFinset before distinct]
  apply sum_differ_at before after account (List.mem_toFinset.mpr member)
  intro other otherMember
  exact agree other (List.mem_toFinset.mp otherMember)

theorem sum_moveBalance [Fintype A] (balances : A → Nat) (payer payee : A) (amount : Nat)
    (enough : amount ≤ balances payer) :
    ∑ a, moveBalance balances payer payee amount a = ∑ a, balances a := by
  let debited := Function.update balances payer (balances payer - amount)
  have debit := sum_differ_at balances debited payer (mem_univ payer)
    (fun other _ differ => Function.update_of_ne differ _ _)
  have credit := sum_differ_at debited (moveBalance balances payer payee amount) payee
    (mem_univ payee) (fun other _ differ => Function.update_of_ne differ _ _)
  have payerLeft : debited payer = balances payer - amount := Function.update_self ..
  have payeeLeft : moveBalance balances payer payee amount payee = debited payee + amount :=
    Function.update_self ..
  omega

end Usd8Core.Lib.FiniteLedger
