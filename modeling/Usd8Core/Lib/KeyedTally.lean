import Mathlib.Algebra.BigOperators.Group.List.Basic
import Mathlib.Data.List.Pairwise
import Mathlib.Tactic.Common
import Std.Data.TreeMap

/-!
# Totals by key

A map that adds what is entered under a key to what is there.  Its list of entries
is the one list in the order of the keys that has the totals, whatever the order in
which they were entered.
-/

set_option autoImplicit false

namespace Usd8Core.Lib.KeyedTally

open Std

variable {K V : Type} {cmp : K → K → Ordering}

theorem sorted_nodup [ReflCmp cmp] {entries : List (K × V)}
    (sorted : entries.Pairwise fun first second => cmp first.1 second.1 = .lt) :
    entries.Nodup := by
  refine sorted.imp ?_
  rintro first _ below rfl
  have level : cmp first.1 first.1 = .eq := ReflCmp.compare_self
  rw [level] at below
  cases below

/-- The entries of a map in the order of its keys. -/
theorem toList_eq [TransCmp cmp] [LawfulEqCmp cmp] (tally : TreeMap K V cmp) (entries : List (K × V))
    (sorted : entries.Pairwise fun first second => cmp first.1 second.1 = .lt)
    (same : ∀ key value, tally[key]? = some value ↔ (key, value) ∈ entries) :
    tally.toList = entries := by
  have ordered : tally.toList.Pairwise fun first second => cmp first.1 second.1 = .lt :=
    TreeMap.ordered_keys_toList
  have perm : tally.toList.Perm entries := by
    rw [List.perm_ext_iff_of_nodup (sorted_nodup ordered) (sorted_nodup sorted)]
    intro entry
    rw [← same]
    exact TreeMap.mem_toList_iff_getElem?_eq_some
  refine perm.eq_of_pairwise ?_ ordered sorted
  intro first second _ _ below above
  have swapped : cmp first.1 second.1 = (cmp second.1 first.1).swap := OrientedCmp.eq_swap
  rw [swapped, above] at below
  cases below

variable [AddMonoid V]

/-- `*map.entry(key).or_default() += amount` -/
def enter (tally : TreeMap K V cmp) (entry : K × V) : TreeMap K V cmp :=
  tally.alter entry.1 fun total => some (total.getD 0 + entry.2)

def enterAll (tally : TreeMap K V cmp) (entries : List (K × V)) : TreeMap K V cmp :=
  entries.foldl enter tally

section Totals

variable [DecidableEq K]

/-- What a list of entries adds under a key. -/
def totalAt (key : K) (entries : List (K × V)) : V :=
  ((entries.filter fun entry => entry.1 = key).map Prod.snd).sum

variable {I : Type} {key : I → K}

theorem filter_key_eq {items : List I} (distinct : items.Pairwise fun first second =>
    key first ≠ key second) {item : I} (member : item ∈ items) :
    items.filter (fun other => key other = key item) = [item] := by
  induction items with
  | nil => cases member
  | cons head rest ih =>
      rw [List.pairwise_cons] at distinct
      rcases List.mem_cons.mp member with rfl | later
      · have others : rest.filter (fun other => key other = key item) = [] := by
          rw [List.filter_eq_nil_iff]
          intro other inRest same
          exact distinct.1 other inRest (of_decide_eq_true same).symm
        simp [others]
      · have differs : key head ≠ key item := distinct.1 item later
        simp [differs, ih distinct.2 later]

/-- What a pass enters for the items. -/
def entriesOf (key : I → K) (items : List I) (amounts : I → List V) : List (K × V) :=
  items.flatMap fun item => (amounts item).map (Prod.mk (key item))

theorem totalAt_append (place : K) (first second : List (K × V)) :
    totalAt place (first ++ second) = totalAt place first + totalAt place second := by
  simp [totalAt]

theorem totalAt_entriesOf (items : List I) (amounts : I → List V) (place : K) :
    totalAt place (entriesOf key items amounts) =
      ((items.filter fun item => key item = place).flatMap amounts).sum := by
  induction items with
  | nil => rfl
  | cons item rest ih =>
      have whole : entriesOf key (item :: rest) amounts =
        (amounts item).map (Prod.mk (key item)) ++ entriesOf key rest amounts := rfl
      rw [whole, totalAt_append, ih]
      by_cases isKey : key item = place
      · simp [totalAt, isKey, List.filter_map, Function.comp_def]
      · simp [totalAt, isKey, List.filter_map, Function.comp_def]

theorem totalAt_passes {items : List I} (distinct : items.Pairwise fun first second =>
    key first ≠ key second) {item : I} (member : item ∈ items) (passes : List (I → List V)) :
    totalAt (key item) (passes.flatMap (entriesOf key items)) =
      (passes.flatMap fun amounts => amounts item).sum := by
  induction passes with
  | nil => rfl
  | cons amounts rest ih =>
      rw [List.flatMap_cons, List.flatMap_cons, totalAt_append, ih, totalAt_entriesOf,
        filter_key_eq distinct member, List.sum_append]
      simp

variable [TransCmp cmp] [LawfulEqCmp cmp]

theorem getElem?_enter (tally : TreeMap K V cmp) (entry : K × V) (key : K) :
    (enter tally entry)[key]? =
      if entry.1 = key then some (tally[key]?.getD 0 + entry.2) else tally[key]? := by
  rw [enter, TreeMap.getElem?_alter]
  by_cases isKey : entry.1 = key
  · simp [isKey]
  · simp [isKey, LawfulEqCmp.compare_eq_iff_eq]

theorem getElem?_enterAll (entries : List (K × V)) (tally : TreeMap K V cmp) (key : K) :
    (enterAll tally entries)[key]? =
      if key ∈ entries.map Prod.fst then some (tally[key]?.getD 0 + totalAt key entries)
      else tally[key]? := by
  induction entries generalizing tally with
  | nil => simp [enterAll]
  | cons entry rest ih =>
      have step : enterAll tally (entry :: rest) = enterAll (enter tally entry) rest := rfl
      rw [step, ih, getElem?_enter]
      by_cases isKey : entry.1 = key
      · have total : totalAt key (entry :: rest) = entry.2 + totalAt key rest := by
          simp [totalAt, isKey]
        by_cases later : key ∈ rest.map Prod.fst
        · rw [if_pos later, if_pos isKey, if_pos (by simp [isKey]), total, Option.getD_some,
            add_assoc]
        · have none : totalAt key rest = 0 := by
            have empty : rest.filter (fun other => other.1 = key) = [] := by
              rw [List.filter_eq_nil_iff]
              intro other member isOther
              exact later (List.mem_map.mpr ⟨other, member, of_decide_eq_true isOther⟩)
            simp [totalAt, empty]
          rw [if_neg later, if_pos isKey, if_pos (by simp [isKey]), total, none, add_zero]
      · have total : totalAt key (entry :: rest) = totalAt key rest := by
          simp [totalAt, isKey]
        have sameKeys : key ∈ (entry :: rest).map Prod.fst ↔ key ∈ rest.map Prod.fst := by
          simp [Ne.symm isKey]
        rw [if_neg isKey, total, if_congr sameKeys rfl rfl]

/-- Rows in the order of their keys, each the total of its key, are what is listed. -/
theorem enterAll_toList (entries rows : List (K × V))
    (sorted : rows.Pairwise fun first second => cmp first.1 second.1 = .lt)
    (keys : ∀ key, key ∈ entries.map Prod.fst ↔ key ∈ rows.map Prod.fst)
    (totals : ∀ row ∈ rows, totalAt row.1 entries = row.2) :
    (enterAll (∅ : TreeMap K V cmp) entries).toList = rows := by
  refine toList_eq _ rows sorted fun key value => ?_
  rw [getElem?_enterAll]
  constructor
  · intro found
    split at found
    next entered =>
      obtain ⟨row, member, rfl⟩ := List.mem_map.mp ((keys key).mp entered)
      have isTotal : totalAt row.1 entries = value := by simpa using found
      rw [← isTotal, totals row member]
      exact member
    next => simp at found
  · intro member
    have entered := (keys key).mpr (List.mem_map.mpr ⟨_, member, rfl⟩)
    rw [if_pos entered, totals (key, value) member]
    simp

/-- Every pass enters amounts under the keys of the items; each item is listed once, with
what all the passes entered for it. -/
theorem enterAll_passes_toList (items : List I) (passes : List (I → List V))
    (sorted : items.Pairwise fun first second => cmp (key first) (key second) = .lt) :
    (enterAll (∅ : TreeMap K V cmp) (passes.flatMap (entriesOf key items))).toList =
      (items.filter fun item => passes.any fun amounts => amounts item ≠ []).map fun item =>
        (key item, (passes.flatMap fun amounts => amounts item).sum) := by
  have distinct : items.Pairwise fun first second => key first ≠ key second := by
    refine sorted.imp ?_
    intro first second below same
    have level : cmp (key second) (key second) = .eq := ReflCmp.compare_self
    rw [same, level] at below
    cases below
  refine enterAll_toList _ _ ?_ ?_ ?_
  · rw [List.pairwise_map]
    exact sorted.filter _
  · intro place
    simp only [entriesOf, List.map_flatMap, List.map_map, List.mem_flatMap, List.mem_map,
      List.mem_filter, List.any_eq_true, decide_eq_true_eq, Function.comp_apply]
    constructor
    · rintro ⟨amounts, pass, item, member, amount, entered, rfl⟩
      exact ⟨item, ⟨member, amounts, pass, List.ne_nil_of_mem entered⟩, rfl⟩
    · rintro ⟨item, ⟨member, amounts, pass, some⟩, rfl⟩
      obtain ⟨amount, entered⟩ := List.exists_mem_of_ne_nil _ some
      exact ⟨amounts, pass, item, member, amount, entered, rfl⟩
  · intro row listed
    obtain ⟨item, chosen, rfl⟩ := List.mem_map.mp listed
    exact totalAt_passes distinct (List.mem_of_mem_filter chosen) passes

end Totals

end Usd8Core.Lib.KeyedTally
