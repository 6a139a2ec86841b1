import Mathlib.Data.List.Basic
import Mathlib.Data.Nat.Digits.Defs
import Mathlib.Tactic.Common
import Mathlib.Tactic.Ring

/-!
# Decimal texts

The number that decimal digits spell, the order of texts of one length, and the text
that a number is written as.
-/

set_option autoImplicit false

namespace Usd8Core.Lib.DecimalText

/-- `is_ascii_digit` -/
def isDigit (c : Char) : Bool := '0'.toNat ≤ c.toNat && c.toNat ≤ '9'.toNat

def digitValue (c : Char) : Nat := c.toNat - '0'.toNat

/-- The number that decimal digits spell. -/
def decimalValue (digits : List Char) : Nat :=
  digits.foldl (fun value digit => 10 * value + digitValue digit) 0

/-- The order of texts by their characters. -/
def textLe : List Char → List Char → Bool
  | [], _ => true
  | _ :: _, [] => false
  | first :: rest, other :: others =>
      first.toNat < other.toNat || first.toNat == other.toNat && textLe rest others

/-- `to_string` of an unsigned integer. -/
def decimalText (value : Nat) : String := String.ofList (Nat.toDigits 10 value)

/-- The number of a text that is how a number is written: digits, with no zero before others. -/
def canonicalValue (digits : List Char) : Option Nat :=
  if digits = [] ∨ (1 < digits.length ∧ digits.head? = some '0') ∨ digits.all isDigit = false then
    none
  else some (decimalValue digits)

/-! ## Values -/

theorem digitValue_lt {c : Char} (digit : isDigit c = true) : digitValue c < 10 := by
  simp only [isDigit, Bool.and_eq_true, decide_eq_true_eq] at digit
  have nine : '9'.toNat = '0'.toNat + 9 := by decide
  unfold digitValue
  omega

theorem decimalValue_foldl (digits : List Char) (start : Nat) :
    digits.foldl (fun value digit => 10 * value + digitValue digit) start =
      start * 10 ^ digits.length + decimalValue digits := by
  induction digits generalizing start with
  | nil => simp [decimalValue]
  | cons digit rest ih =>
      have own := ih (10 * 0 + digitValue digit)
      rw [List.foldl_cons, ih, decimalValue.eq_def (digit :: rest), List.foldl_cons, own,
        List.length_cons, Nat.pow_succ]
      ring

theorem decimalValue_cons (digit : Char) (rest : List Char) :
    decimalValue (digit :: rest) = digitValue digit * 10 ^ rest.length + decimalValue rest := by
  rw [decimalValue, List.foldl_cons, decimalValue_foldl]
  simp

theorem decimalValue_concat (digits : List Char) (digit : Char) :
    decimalValue (digits ++ [digit]) = 10 * decimalValue digits + digitValue digit := by
  simp [decimalValue, List.foldl_append]

theorem decimalValue_lt {digits : List Char} (all : digits.all isDigit = true) :
    decimalValue digits < 10 ^ digits.length := by
  induction digits with
  | nil => simp [decimalValue]
  | cons digit rest ih =>
      simp only [List.all_cons, Bool.and_eq_true] at all
      have below := ih all.2
      have own := digitValue_lt all.1
      rw [decimalValue_cons, List.length_cons, Nat.pow_succ]
      calc digitValue digit * 10 ^ rest.length + decimalValue rest
          < digitValue digit * 10 ^ rest.length + 10 ^ rest.length := Nat.add_lt_add_left below _
        _ = (digitValue digit + 1) * 10 ^ rest.length := by ring
        _ ≤ 10 ^ rest.length * 10 := by
            rw [Nat.mul_comm]
            exact Nat.mul_le_mul_left _ own

/-- Texts of one length compare as their numbers do. -/
theorem textLe_iff {first second : List Char} (firstDigits : first.all isDigit = true)
    (secondDigits : second.all isDigit = true) (lengths : first.length = second.length) :
    textLe first second = true ↔ decimalValue first ≤ decimalValue second := by
  induction first generalizing second with
  | nil => simp [textLe, decimalValue]
  | cons digit rest ih =>
      cases second with
      | nil => simp at lengths
      | cons other others =>
          simp only [List.all_cons, Bool.and_eq_true] at firstDigits secondDigits
          have sameLength : rest.length = others.length := by simpa using lengths
          have tail := ih firstDigits.2 secondDigits.2 sameLength
          have restLt := decimalValue_lt firstDigits.2
          have othersLt := decimalValue_lt secondDigits.2
          have digitEq : digit.toNat = '0'.toNat + digitValue digit := by
            have bounds := firstDigits.1
            simp only [isDigit, Bool.and_eq_true, decide_eq_true_eq] at bounds
            unfold digitValue
            omega
          have otherEq : other.toNat = '0'.toNat + digitValue other := by
            have bounds := secondDigits.1
            simp only [isDigit, Bool.and_eq_true, decide_eq_true_eq] at bounds
            unfold digitValue
            omega
          rw [decimalValue_cons, decimalValue_cons, ← sameLength, textLe]
          rw [← sameLength] at othersLt
          simp only [Bool.or_eq_true, decide_eq_true_eq, Bool.and_eq_true, beq_iff_eq, tail]
          generalize 10 ^ rest.length = power at *
          rcases Nat.lt_trichotomy (digitValue digit) (digitValue other) with less | same | more
          · have gap : digitValue digit * power + power ≤ digitValue other * power := by
              calc digitValue digit * power + power = (digitValue digit + 1) * power := by ring
                _ ≤ digitValue other * power := Nat.mul_le_mul_right _ less
            constructor
            · intro _
              omega
            · intro _
              left
              omega
          · rw [same]
            constructor
            · rintro (less | ⟨-, below⟩)
              · omega
              · omega
            · intro below
              right
              omega
          · have gap : digitValue other * power + power ≤ digitValue digit * power := by
              calc digitValue other * power + power = (digitValue other + 1) * power := by ring
                _ ≤ digitValue digit * power := Nat.mul_le_mul_right _ more
            constructor
            · rintro (less | ⟨equal, -⟩)
              · omega
              · omega
            · intro below
              omega

/-! ## Written numbers -/

theorem digitChar_digit : ∀ value < 10,
    isDigit (Nat.digitChar value) = true ∧ digitValue (Nat.digitChar value) = value := by
  decide

theorem toDigits_spec (value : Nat) :
    (Nat.toDigits 10 value).all isDigit = true ∧ decimalValue (Nat.toDigits 10 value) = value := by
  induction value using Nat.strong_induction_on with
  | _ value ih =>
      rcases Nat.lt_or_ge value 10 with small | large
      · rw [Nat.toDigits_of_lt_base small]
        have own := digitChar_digit value small
        exact ⟨by simp [own.1], by simp [decimalValue, own.2]⟩
      · have quotient := ih (value / 10) (Nat.div_lt_self (by omega) (by omega))
        have last := digitChar_digit (value % 10) (Nat.mod_lt _ (by omega))
        rw [Nat.toDigits_of_base_le (by omega) large]
        refine ⟨by simp [quotient.1, last.1], ?_⟩
        rw [decimalValue_concat, quotient.2, last.2]
        omega

/-- The digits of a number are no more than a bound on it has. -/
theorem toDigits_length_le {value length : Nat} (positive : 0 < length)
    (below : value < 10 ^ length) : (Nat.toDigits 10 value).length ≤ length := by
  induction length generalizing value with
  | zero => omega
  | succ length ih =>
      rcases Nat.lt_or_ge value 10 with small | large
      · rw [Nat.toDigits_of_lt_base small]
        simp
      · have lengthPos : 0 < length := by
          rcases Nat.eq_zero_or_pos length with rfl | positive
          · simp at below
            omega
          · exact positive
        have quotient : value / 10 < 10 ^ length := by
          apply Nat.div_lt_of_lt_mul
          rwa [Nat.mul_comm, ← Nat.pow_succ]
        rw [Nat.toDigits_of_base_le (by omega) large, List.length_append, List.length_singleton]
        exact Nat.succ_le_succ (ih lengthPos quotient)

/-- The first digit of a positive number is not zero. -/
theorem toDigits_head {value : Nat} (positive : value ≠ 0) :
    (Nat.toDigits 10 value).head? ≠ some '0' := by
  induction value using Nat.strong_induction_on with
  | _ value ih =>
      rcases Nat.lt_or_ge value 10 with small | large
      · rw [Nat.toDigits_of_lt_base small]
        have notZero : ∀ digit < 10, digit ≠ 0 → Nat.digitChar digit ≠ '0' := by decide
        simpa using notZero value small positive
      · have quotient := ih (value / 10) (Nat.div_lt_self (by omega) (by omega)) (by omega)
        rw [Nat.toDigits_of_base_le (by omega) large]
        have nonempty : Nat.toDigits 10 (value / 10) ≠ [] := Nat.toDigits_ne_nil
        rwa [List.head?_append_of_ne_nil _ nonempty]

theorem toDigits_ne_nil (value : Nat) : Nat.toDigits 10 value ≠ [] := Nat.toDigits_ne_nil

theorem canonicalValue_decimalText (value : Nat) :
    canonicalValue (decimalText value).toList = some value := by
  have digits := toDigits_spec value
  have canonical : ¬ (1 < (Nat.toDigits 10 value).length ∧
      (Nat.toDigits 10 value).head? = some '0') := by
    rintro ⟨long, zero⟩
    rcases Nat.eq_zero_or_pos value with rfl | positive
    · simp at long
    · exact toDigits_head positive.ne' zero
  simp [canonicalValue, decimalText, canonical, digits.1, digits.2]

end Usd8Core.Lib.DecimalText
