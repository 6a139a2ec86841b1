import Usd8Core.Lib.CheckedCall

/-!
# Insertion and deletion by shifting

An entry is put into an array, or taken out of it, by moving the entries behind it one
place, one write at a time.  Every access is checked against the length.
-/

set_option autoImplicit false

namespace Usd8Core.Lib.ArrayShift

open Usd8Core.Lib.CheckedCall

variable {α ε : Type} [HasPanic ε]

def readAt (array : List α) (index : Nat) : Except ε α :=
  orRevert array[index]? (HasPanic.panic .indexOutOfBounds)

def writeAt (array : List α) (index : Nat) (value : α) : Except ε (List α) := do
  revertIf (array.length ≤ index) (HasPanic.panic .indexOutOfBounds)
  pure (array.set index value)

/-- The loop from `i` down to `index`, both ends as they are tested. -/
def shiftUp (index : Nat) : Nat → List α → Except ε (List α)
  | 0, array => pure array
  | i + 1, array =>
      if index < i + 1 then do
        let value ← readAt array i
        let array ← writeAt array (i + 1) value
        shiftUp index i array
      else pure array

/-- The loop from `i` up to `last`. -/
def shiftDown (last i : Nat) (array : List α) : Except ε (List α) :=
  if i < last then do
    let value ← readAt array (i + 1)
    let array ← writeAt array i value
    shiftDown last (i + 1) array
  else pure array
termination_by last - i

def insertAt (array : List α) (index : Nat) (value : α) : Except ε (List α) := do
  let array' ← shiftUp index array.length (array ++ [value])
  writeAt array' index value

def removeAt (array : List α) (index : Nat) : Except ε (List α) := do
  let last ← checkedSub array.length 1
  let array ← shiftDown last index array
  pure array.dropLast

section Shifts

variable {array : List α} {index : Nat}

theorem writeAt_inside (inside : index < array.length) (value : α) :
    writeAt array index value = (.ok (array.set index value) : Except ε (List α)) := by
  simp [writeAt, revertIf, Nat.not_le.mpr inside, Bind.bind, Except.bind, pure, Except.pure]

theorem readAt_inside (inside : index < array.length) :
    readAt array index = (.ok array[index] : Except ε α) := by
  simp [readAt, inside, orRevert]

/-- What the loop down leaves: the entries from `index` on, one place further. -/
theorem shiftUp_ok (top : Nat) (array : List α) (order : index ≤ top)
    (inside : top < array.length) :
    ∃ shifted, shiftUp index top array = (.ok shifted : Except ε (List α)) ∧
      shifted.length = array.length ∧ ∀ place, shifted[place]? =
        if index < place ∧ place ≤ top then array[place - 1]? else array[place]? := by
  induction top generalizing array with
  | zero =>
      refine ⟨array, rfl, rfl, fun place => ?_⟩
      rw [if_neg (by omega)]
  | succ i ih =>
      by_cases more : index < i + 1
      · have inArray : i < array.length := by omega
        obtain ⟨shifted, run, length, places⟩ := ih (array.set (i + 1) array[i]) (by omega)
          (by rw [List.length_set]; omega)
        refine ⟨shifted, ?_, by rw [length, List.length_set], fun place => ?_⟩
        · rw [shiftUp, if_pos more]
          refine (bind_ok_iff _ _ _).mpr ⟨_, readAt_inside inArray, ?_⟩
          exact (bind_ok_iff _ _ _).mpr ⟨_, writeAt_inside inside _, run⟩
        · rw [places place]
          by_cases moved : index < place ∧ place ≤ i
          · rw [if_pos moved, if_pos ⟨moved.1, by omega⟩, List.getElem?_set_ne (by omega)]
          · rw [if_neg moved]
            by_cases atTop : place = i + 1
            · subst atTop
              rw [if_pos ⟨more, Nat.le_refl _⟩, List.getElem?_set_self inside]
              simp [inArray]
            · rw [if_neg (by omega), List.getElem?_set_ne (Ne.symm atTop)]
      · refine ⟨array, by rw [shiftUp, if_neg more]; rfl, rfl, fun place => ?_⟩
        rw [if_neg (by omega)]

/-- What the loop up leaves: the entries behind `index`, one place nearer. -/
theorem shiftDown_ok (last : Nat) (array : List α) (inside : last < array.length) :
    ∃ shifted, shiftDown last index array = (.ok shifted : Except ε (List α)) ∧
      shifted.length = array.length ∧ ∀ place, shifted[place]? =
        if index ≤ place ∧ place < last then array[place + 1]? else array[place]? := by
  induction left : last - index generalizing index array with
  | zero =>
      refine ⟨array, by rw [shiftDown, if_neg (by omega)]; rfl, rfl, fun place => ?_⟩
      rw [if_neg (by omega)]
  | succ count ih =>
      have more : index < last := by omega
      have inArray : index + 1 < array.length := by omega
      obtain ⟨shifted, run, length, places⟩ := ih
        (array.set index array[index + 1]) (by rw [List.length_set]; omega)
        (by omega : last - (index + 1) = count)
      refine ⟨shifted, ?_, by rw [length, List.length_set], fun place => ?_⟩
      · rw [shiftDown, if_pos more]
        refine (bind_ok_iff _ _ _).mpr ⟨_, readAt_inside inArray, ?_⟩
        exact (bind_ok_iff _ _ _).mpr ⟨_, writeAt_inside (by omega) _, run⟩
      · rw [places place]
        by_cases moved : index + 1 ≤ place ∧ place < last
        · rw [if_pos moved, if_pos ⟨by omega, moved.2⟩, List.getElem?_set_ne (by omega)]
        · rw [if_neg moved]
          by_cases here : place = index
          · subst here
            rw [if_pos ⟨Nat.le_refl _, more⟩, List.getElem?_set_self (by omega)]
            simp [inArray]
          · rw [if_neg (by omega), List.getElem?_set_ne (Ne.symm here)]

theorem insertAt_eq (array : List α) (order : index ≤ array.length) (value : α) :
    insertAt array index value = (.ok (array.insertIdx index value) : Except ε (List α)) := by
  obtain ⟨shifted, run, length, places⟩ :=
    shiftUp_ok (ε := ε) array.length (array ++ [value]) order (by simp)
  have inside : index < shifted.length := by
    rw [length]
    simp
    omega
  have same : shifted.set index value = array.insertIdx index value := by
    refine List.ext_getElem? fun place => ?_
    rw [List.getElem?_insertIdx, List.getElem?_set, places place]
    by_cases here : index = place
    · subst here
      simp [inside, order]
    · rw [if_neg here]
      by_cases before : place < index
      · rw [if_neg (by omega), if_pos before, List.getElem?_append_left (by omega)]
      · rw [if_neg before, if_neg (Ne.symm here)]
        by_cases moved : place ≤ array.length
        · rw [if_pos ⟨by omega, moved⟩, List.getElem?_append_left (by omega)]
        · rw [if_neg (by omega), List.getElem?_eq_none (by simp; omega),
            List.getElem?_eq_none (by omega)]
  rw [← same]
  exact (bind_ok_iff _ _ _).mpr ⟨shifted, run, writeAt_inside inside value⟩

theorem removeAt_eq (array : List α) (inside : index < array.length) :
    removeAt array index = (.ok (array.eraseIdx index) : Except ε (List α)) := by
  have moved : ∃ shifted,
      shiftDown (array.length - 1) index array = (.ok shifted : Except ε (List α)) ∧ _ :=
    shiftDown_ok (array.length - 1) array (by omega)
  obtain ⟨shifted, run, length, places⟩ := moved
  have same : shifted.dropLast = array.eraseIdx index := by
    refine List.ext_getElem? fun place => ?_
    rw [List.getElem?_dropLast, List.getElem?_eraseIdx, length, places place]
    by_cases kept : place < array.length - 1
    · by_cases before : place < index
      · rw [if_pos kept, if_pos before, if_neg (by omega)]
      · rw [if_pos kept, if_neg before, if_pos (by omega)]
    · rw [if_neg kept]
      by_cases before : place < index
      · omega
      · rw [if_neg before, List.getElem?_eq_none (by omega)]
  have lastEntry : (checkedSub array.length 1 : Except ε Nat) = .ok (array.length - 1) :=
    (checkedSub_ok_iff _ _ _).mpr ⟨by omega, rfl⟩
  rw [← same]
  refine (bind_ok_iff _ _ _).mpr ⟨_, lastEntry, ?_⟩
  exact (bind_ok_iff _ _ _).mpr ⟨shifted, run, rfl⟩

end Shifts

end Usd8Core.Lib.ArrayShift
