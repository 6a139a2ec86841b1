import Mathlib.Data.List.Lattice
import Mathlib.Data.List.Nodup
import Mathlib.Data.List.Perm.Subperm
import Mathlib.Data.List.Range

/-!
# Slots filled by index

Values arrive in any order, each with the index of its slot, and no slot is filled
twice.  As many arrivals as slots leave no slot empty, and then the arrivals are
the contents of the slots in some order.
-/

set_option autoImplicit false

namespace Usd8Core.Lib.SlotFill

variable {α : Type}

/-- What the slots hold after the arrivals. -/
structure Filled (count : Nat) (arrivals : List (Nat × α)) (slots : List (Option α)) : Prop where
  length : slots.length = count
  distinct : (arrivals.map Prod.fst).Nodup
  inside : ∀ arrival ∈ arrivals, arrival.1 < count
  holds : ∀ index value, slots[index]? = some (some value) ↔ (index, value) ∈ arrivals

theorem filled_nil (count : Nat) : Filled count ([] : List (Nat × α)) (List.replicate count none) where
  length := List.length_replicate
  distinct := List.nodup_nil
  inside := by simp
  holds index value := by simp [List.getElem?_replicate]

variable {count : Nat} {arrivals : List (Nat × α)} {slots : List (Option α)}

namespace Filled

/-- A slot with no arrival is empty. -/
theorem empty (filled : Filled count arrivals slots) {index : Nat} (inside : index < count)
    (absent : index ∉ arrivals.map Prod.fst) : slots[index]? = some none := by
  have isSlot : index < slots.length := filled.length.symm ▸ inside
  rw [List.getElem?_eq_getElem isSlot]
  cases held : slots[index] with
  | none => rfl
  | some value =>
      have arrived : (index, value) ∈ arrivals := by
        rw [← filled.holds, List.getElem?_eq_getElem isSlot, held]
      exact absurd (List.mem_map.mpr ⟨_, arrived, rfl⟩) absent

theorem absent (filled : Filled count arrivals slots) {index : Nat}
    (isEmpty : slots[index]? = some none) : index ∉ arrivals.map Prod.fst := by
  intro member
  obtain ⟨⟨_, value⟩, arrived, rfl⟩ := List.mem_map.mp member
  have held := (filled.holds _ _).mpr arrived
  rw [isEmpty] at held
  cases held

/-- One more arrival, for a slot that is empty. -/
theorem place (filled : Filled count arrivals slots) {index : Nat} (inside : index < count)
    (isEmpty : slots[index]? = some none) (value : α) :
    Filled count (arrivals ++ [(index, value)]) (slots.set index (some value)) where
  length := by rw [List.length_set, filled.length]
  distinct := by
    rw [List.map_append, List.map_singleton, List.nodup_append]
    refine ⟨filled.distinct, List.nodup_singleton _, ?_⟩
    intro other member placed isPlaced same
    rw [same, List.mem_singleton.mp isPlaced] at member
    exact filled.absent isEmpty member
  inside arrival member := by
    rcases List.mem_append.mp member with before | isNew
    · exact filled.inside arrival before
    · rw [List.mem_singleton.mp isNew]
      exact inside
  holds other content := by
    have isSlot : index < slots.length := filled.length.symm ▸ inside
    by_cases same : index = other
    · subst same
      have nothing : (index, content) ∉ arrivals := fun arrived =>
        filled.absent isEmpty (List.mem_map.mpr ⟨_, arrived, rfl⟩)
      simp [isSlot, nothing, eq_comm]
    · have others : other ≠ index := fun again => same again.symm
      simp [List.getElem?_set_ne same, filled.holds, others]

/-- The arrivals determine the slots. -/
theorem unique {other : List (Option α)} (filled : Filled count arrivals slots)
    (filledToo : Filled count arrivals other) : slots = other := by
  apply List.ext_getElem?
  intro index
  by_cases inside : index < count
  · by_cases member : index ∈ arrivals.map Prod.fst
    · obtain ⟨⟨_, value⟩, arrived, rfl⟩ := List.mem_map.mp member
      rw [(filled.holds _ value).mpr arrived, (filledToo.holds _ value).mpr arrived]
    · rw [filled.empty inside member, filledToo.empty inside member]
  · rw [List.getElem?_eq_none (by rw [filled.length]; omega),
      List.getElem?_eq_none (by rw [filledToo.length]; omega)]

/-- As many arrivals as slots: each index arrived. -/
theorem perm_range (filled : Filled count arrivals slots) (full : arrivals.length = count) :
    (arrivals.map Prod.fst).Perm (List.range count) := by
  have within : arrivals.map Prod.fst ⊆ List.range count := by
    intro index member
    obtain ⟨arrival, arrived, rfl⟩ := List.mem_map.mp member
    exact List.mem_range.mpr (filled.inside arrival arrived)
  apply (List.subperm_of_subset filled.distinct within).perm_of_length_le
  simp [full]

theorem none_empty (filled : Filled count arrivals slots) (full : arrivals.length = count) :
    ∀ slot ∈ slots, slot.isSome := by
  intro slot member
  obtain ⟨index, isSlot, rfl⟩ := List.getElem_of_mem member
  have arrived : index ∈ arrivals.map Prod.fst :=
    (filled.perm_range full).mem_iff.mpr (List.mem_range.mpr (filled.length ▸ isSlot))
  obtain ⟨⟨_, value⟩, isArrival, rfl⟩ := List.mem_map.mp arrived
  have held := (filled.holds _ value).mpr isArrival
  rw [List.getElem?_eq_getElem isSlot] at held
  rw [Option.some.inj held]
  rfl

/-- Slots that are all filled, with what they hold. -/
theorem eq_map_some (filled : Filled count arrivals slots) (full : arrivals.length = count) :
    ∃ values : List α, slots = values.map some := by
  have held := filled.none_empty full
  clear filled full
  induction slots with
  | nil => exact ⟨[], rfl⟩
  | cons slot rest ih =>
      obtain ⟨values, isRest⟩ := ih fun other member => held other (List.mem_cons_of_mem _ member)
      obtain ⟨value, isSlot⟩ := Option.isSome_iff_exists.mp (held slot List.mem_cons_self)
      exact ⟨value :: values, by rw [isSlot, isRest, List.map_cons]⟩

end Filled

/-- The contents by index. -/
def contents (values : List α) : List (Nat × α) := values.zipIdx.map Prod.swap

theorem mem_contents {values : List α} {index : Nat} {value : α} :
    (index, value) ∈ contents values ↔ values[index]? = some value := by
  rw [contents, List.mem_map]
  constructor
  · rintro ⟨⟨item, place⟩, member, same⟩
    cases same
    exact List.mem_zipIdx_iff_getElem?.mp member
  · exact fun held => ⟨(value, index), List.mem_zipIdx_iff_getElem?.mpr held, rfl⟩

theorem contents_indices (values : List α) :
    (contents values).map Prod.fst = List.range values.length := by
  rw [contents, List.map_map, List.range_eq_range']
  exact List.zipIdx_map_snd 0 values

theorem contents_length (values : List α) : (contents values).length = values.length := by
  simp [contents]

/-- Filled slots are what arrived, in the order of the indices. -/
theorem filled_map_some_iff {values : List α} :
    Filled count arrivals (values.map some) ↔
      values.length = count ∧ arrivals.Perm (contents values) := by
  constructor
  · intro filled
    have isLength : values.length = count := by simpa using filled.length
    refine ⟨isLength, (List.perm_ext_iff_of_nodup filled.distinct.of_map ?_).mpr ?_⟩
    · exact List.Nodup.of_map _ (by rw [contents_indices]; exact List.nodup_range)
    · rintro ⟨index, value⟩
      rw [mem_contents, ← filled.holds]
      simp
  · rintro ⟨isLength, sameArrivals⟩
    have indices : (arrivals.map Prod.fst).Perm (List.range count) := by
      rw [← isLength, ← contents_indices]
      exact sameArrivals.map _
    exact {
      length := by simpa using isLength
      distinct := indices.nodup_iff.mpr List.nodup_range
      inside := fun arrival arrived =>
        List.mem_range.mp (indices.mem_iff.mp (List.mem_map.mpr ⟨arrival, arrived, rfl⟩))
      holds := fun index value => by
        rw [sameArrivals.mem_iff, mem_contents]
        simp }

end Usd8Core.Lib.SlotFill
