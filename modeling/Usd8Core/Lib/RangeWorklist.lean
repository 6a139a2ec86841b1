import Mathlib.Data.List.Basic
import Mathlib.Tactic.Common

/-!
# Collecting a range piece by piece

A stack of ranges is worked off from the top: a range is either answered by a
page with exactly what lies in it, or cut in two.  The ranges on the stack always
tile what is left, so an empty stack means that everything was collected.
-/

set_option autoImplicit false

namespace Usd8Core.Lib.RangeWorklist

variable {α : Type}

/-- The ranges cover the numbers from `next` to `last` in order, without gap or overlap. -/
inductive Tiles (last : Nat) : Nat → List (Nat × Nat) → Prop
  | nil : Tiles last (last + 1) []
  | cons {next upto : Nat} {rest : List (Nat × Nat)} (ordered : next ≤ upto)
      (after : Tiles last (upto + 1) rest) : Tiles last next ((next, upto) :: rest)

/-- The list holds exactly the wanted items whose place is in the range. -/
def Collects (wanted : α → Prop) (place : α → Nat) (first next : Nat) (items : List α) : Prop :=
  ∀ item, item ∈ items ↔ wanted item ∧ first ≤ place item ∧ place item < next

section Collects

variable {wanted : α → Prop} {place : α → Nat} {first next last : Nat}

theorem Collects.nil : Collects wanted place first first [] := by
  intro item
  constructor
  · intro member
    simp at member
  · rintro ⟨-, above, below⟩
    omega

theorem Collects.append {items page : List α} (collected : Collects wanted place first next items)
    (exact : Collects wanted place next last page) (start : first ≤ next) (order : next ≤ last) :
    Collects wanted place first last (items ++ page) := by
  intro item
  rw [List.mem_append, collected item, exact item]
  constructor
  · rintro (⟨isWanted, above, below⟩ | ⟨isWanted, above, below⟩)
    · exact ⟨isWanted, above, by omega⟩
    · exact ⟨isWanted, by omega, below⟩
  · rintro ⟨isWanted, above, below⟩
    rcases Nat.lt_or_ge (place item) next with early | late
    · exact .inl ⟨isWanted, above, early⟩
    · exact .inr ⟨isWanted, late, below⟩

end Collects

/-- The ranges that are left, the top of the stack first, and what was collected. -/
structure Work (α : Type) where
  pending : List (Nat × Nat)
  output : List α

/-- What one round does with the range on top, where `pages` says how a range is answered. -/
inductive Step (pages : Nat → Nat → List α → Prop) : Work α → Work α → Prop
  | take {first upto : Nat} {rest : List (Nat × Nat)} {output page : List α}
      (answered : pages first upto page) :
      Step pages ⟨(first, upto) :: rest, output⟩ ⟨rest, output ++ page⟩
  | cut {first middle upto : Nat} {rest : List (Nat × Nat)} {output : List α}
      (low : first ≤ middle) (high : middle < upto) :
      Step pages ⟨(first, upto) :: rest, output⟩
        ⟨(first, middle) :: (middle + 1, upto) :: rest, output⟩

/-- The output is made of answers to ranges that follow each other from `first` on. -/
inductive Answered (pages : Nat → Nat → List α → Prop) (first : Nat) : Nat → List α → Prop
  | nil : Answered pages first first []
  | append {next upto : Nat} {output page : List α} (before : Answered pages first next output)
      (order : next ≤ upto) (answered : pages next upto page) :
      Answered pages first (upto + 1) (output ++ page)

/-- Everything before the ranges that are left was answered. -/
def Scanned (pages : Nat → Nat → List α → Prop) (first last : Nat) (work : Work α) : Prop :=
  ∃ next, Tiles last next work.pending ∧ Answered pages first next work.output

section Scanned

variable {pages : Nat → Nat → List α → Prop} {first next last : Nat} {output : List α}
  {work after : Work α}

theorem Answered.first_le (answered : Answered pages first next output) : first ≤ next := by
  induction answered with
  | nil => exact Nat.le_refl _
  | append before order page ih => omega

/-- Exact answers leave no gap. -/
theorem Answered.collects {wanted : α → Prop} {place : α → Nat}
    (exact : ∀ lower upper page, lower ≤ upper → pages lower upper page →
      Collects wanted place lower (upper + 1) page)
    (answered : Answered pages first next output) : Collects wanted place first next output := by
  induction answered with
  | nil => exact .nil
  | append before order page ih =>
      exact ih.append (exact _ _ _ order page) before.first_le (by omega)

/-- Answers that keep to their ranges keep to the whole range. -/
theorem Answered.within {place : α → Nat}
    (inside : ∀ lower upper page, lower ≤ upper → pages lower upper page →
      ∀ item ∈ page, lower ≤ place item ∧ place item ≤ upper)
    (answered : Answered pages first next output) :
    ∀ item ∈ output, first ≤ place item ∧ place item < next := by
  induction answered with
  | nil =>
      intro item member
      cases member
  | append before order page ih =>
      intro item member
      have start := before.first_le
      rcases List.mem_append.mp member with earlier | last
      · have bounds := ih item earlier
        omega
      · have bounds := inside _ _ _ order page item last
        omega

theorem Scanned.start (order : next ≤ last) (answered : Answered pages first next output) :
    Scanned pages first last ⟨[(next, last)], output⟩ :=
  ⟨next, .cons order .nil, answered⟩

/-- The range on top is not empty. -/
theorem Scanned.ordered {lower upper : Nat} {rest : List (Nat × Nat)}
    (scanned : Scanned pages first last ⟨(lower, upper) :: rest, output⟩) : lower ≤ upper := by
  obtain ⟨next, tiles, -⟩ := scanned
  cases tiles with
  | cons ordered rest => exact ordered

theorem Scanned.step (scanned : Scanned pages first last work) (step : Step pages work after) :
    Scanned pages first last after := by
  obtain ⟨next, tiles, answered⟩ := scanned
  cases step with
  | take page =>
      cases tiles with
      | cons ordered rest => exact ⟨_, rest, answered.append ordered page⟩
  | cut low high =>
      cases tiles with
      | cons ordered rest => exact ⟨next, .cons low (.cons high rest), answered⟩

/-- Nothing is left once the stack is empty. -/
theorem Scanned.complete (scanned : Scanned pages first last work) (done : work.pending = []) :
    Answered pages first (last + 1) work.output := by
  obtain ⟨next, tiles, answered⟩ := scanned
  rw [done] at tiles
  cases tiles with
  | nil => exact answered

end Scanned

end Usd8Core.Lib.RangeWorklist
