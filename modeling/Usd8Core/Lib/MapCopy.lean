import Std.Data.TreeMap
import Usd8Core.Lib.CheckedCall

/-!
# Copying a map entry by entry

Every entry of a map is read as an entry of another map.  An entry that cannot be read
ends the copy, and so may a second entry for one key.
-/

set_option autoImplicit false

namespace Usd8Core.Lib.MapCopy

open Std
open Usd8Core.Lib.CheckedCall

variable {K V L W ε : Type} {cmp : K → K → Ordering} {cmp' : L → L → Ordering}

/-- Where duplicates have an error, a key that is there has it. -/
def refuse (error : Option ε) (present : Bool) : Except ε Unit :=
  match error with
  | some error => revertIf (present = true) error
  | none => .ok ()

section Copy

variable (read : K → V → Except ε (L × W)) (duplicate : L → Option ε)

def copyEntry (copied : TreeMap L W cmp') (entry : K × V) : Except ε (TreeMap L W cmp') := do
  let (key, value) ← read entry.1 entry.2
  refuse (duplicate key) (copied.contains key)
  pure (copied.insert key value)

def copy (source : TreeMap K V cmp) : Except ε (TreeMap L W cmp') :=
  source.toList.foldlM (copyEntry read duplicate) ∅

end Copy

/-- The copy under other keys. -/
def rekey (rename : K → L) (change : V → W) (source : TreeMap K V cmp) : TreeMap L W cmp' :=
  source.toList.foldl (fun copied entry => copied.insert (rename entry.1) (change entry.2)) ∅

variable {read : K → V → Except ε (L × W)} {duplicate : L → Option ε}

theorem copy_pure (rename : K → L) (change : V → W) (source : TreeMap K V cmp) :
    (copy (fun key value => .ok (rename key, change value)) (fun _ => none) source :
      Except ε (TreeMap L W cmp')) = .ok (rekey rename change source) := by
  unfold copy rekey
  generalize (∅ : TreeMap L W cmp') = start
  induction source.toList generalizing start with
  | nil => rfl
  | cons entry rest ih => exact ih _

theorem copyEntry_ok {copied next : TreeMap L W cmp'} {entry : K × V}
    (ran : copyEntry read duplicate copied entry = .ok next) :
    ∃ key value, read entry.1 entry.2 = .ok (key, value) ∧ next = copied.insert key value := by
  obtain ⟨⟨key, value⟩, isRead, ran⟩ := (bind_ok_iff _ _ _).mp ran
  obtain ⟨_, -, ran⟩ := (bind_ok_iff _ _ _).mp ran
  exact ⟨key, value, isRead, ((pure_ok_iff _ _).mp ran).symm⟩

section Lookups

variable [TransCmp cmp'] [LawfulEqCmp cmp']

theorem getElem?_insert_eq_some (copied : TreeMap L W cmp') (key other : L) (value found : W) :
    (copied.insert key value)[other]? = some found ↔
      (key = other ∧ value = found) ∨ (key ≠ other ∧ copied[other]? = some found) := by
  rw [TreeMap.getElem?_insert]
  by_cases same : key = other
  · simp [same]
  · simp [same, LawfulEqCmp.compare_eq_iff_eq]

/-- Every entry of a copy was read from some entry. -/
theorem of_copied [TransCmp cmp] [LawfulEqCmp cmp] {source : TreeMap K V cmp}
    {copied : TreeMap L W cmp'} (ran : copy read duplicate source = .ok copied) {key : L}
    {value : W} (found : copied[key]? = some value) :
    ∃ name held, source[name]? = some held ∧ read name held = .ok (key, value) := by
  have entries : ∀ (entries : List (K × V)) (start final : TreeMap L W cmp'),
      entries.foldlM (copyEntry read duplicate) start = .ok final → final[key]? = some value →
      start[key]? = some value ∨
        ∃ entry ∈ entries, read entry.1 entry.2 = .ok (key, value) := by
    intro entries
    induction entries with
    | nil =>
        intro start final run found
        cases (pure_ok_iff _ _).mp run
        exact .inl found
    | cons entry rest ih =>
        intro start final run found
        rw [List.foldlM_cons] at run
        obtain ⟨next, first, run⟩ := (bind_ok_iff _ _ _).mp run
        obtain ⟨own, ownValue, isRead, rfl⟩ := copyEntry_ok first
        rcases ih _ final run found with held | ⟨other, member, otherRead⟩
        · rcases (getElem?_insert_eq_some _ _ _ _ _).mp held with ⟨rfl, rfl⟩ | ⟨-, before⟩
          · exact .inr ⟨entry, List.mem_cons_self, isRead⟩
          · exact .inl before
        · exact .inr ⟨other, List.mem_cons_of_mem _ member, otherRead⟩
  rcases entries _ _ _ ran found with held | ⟨entry, member, isRead⟩
  · simp at held
  · exact ⟨entry.1, entry.2, TreeMap.mem_toList_iff_getElem?_eq_some.mp member, isRead⟩

theorem copyEntries_ok (read : K → V → Except ε (L × W)) (duplicate : L → Option ε)
    (entries : List (K × V)) (start : TreeMap L W cmp')
    (reads : ∀ entry ∈ entries, ∃ result, read entry.1 entry.2 = .ok result)
    (distinct : entries.Pairwise fun first second => ∀ one other,
      read first.1 first.2 = .ok one → read second.1 second.2 = .ok other → one.1 ≠ other.1)
    (fresh : ∀ entry ∈ entries, ∀ result, read entry.1 entry.2 = .ok result →
      start[result.1]? = none) :
    ∃ final, entries.foldlM (copyEntry read duplicate) start = .ok final ∧ ∀ key value,
      final[key]? = some value ↔ start[key]? = some value ∨
        ∃ entry ∈ entries, read entry.1 entry.2 = .ok (key, value) := by
  induction entries generalizing start with
  | nil => exact ⟨start, rfl, by simp⟩
  | cons entry rest ih =>
      obtain ⟨⟨own, ownValue⟩, isRead⟩ := reads entry List.mem_cons_self
      obtain ⟨apart, others⟩ := List.pairwise_cons.mp distinct
      have absent := fresh entry List.mem_cons_self _ isRead
      have inserted : copyEntry read duplicate start entry = .ok (start.insert own ownValue) := by
        have notThere : start.contains own = false := by
          simp [← TreeMap.isSome_getElem?_eq_contains, absent]
        have passes : refuse (duplicate own) (start.contains own) = .ok () := by
          cases duplicate own <;> simp [refuse, revertIf, notThere]
        refine (bind_ok_iff _ _ _).mpr ⟨_, isRead, (bind_ok_iff _ _ _).mpr ⟨(), passes, rfl⟩⟩
      obtain ⟨final, run, lookups⟩ := ih (start.insert own ownValue)
        (fun other member => reads other (List.mem_cons_of_mem _ member)) others
        (fun other member result otherRead => by
          have differ : own ≠ result.1 := apart other member _ _ isRead otherRead
          have before := fresh other (List.mem_cons_of_mem _ member) result otherRead
          rw [TreeMap.getElem?_insert, if_neg (by simpa [LawfulEqCmp.compare_eq_iff_eq] using differ),
            before])
      refine ⟨final, ?_, fun key value => ?_⟩
      · rw [List.foldlM_cons, inserted]
        exact run
      · rw [lookups, getElem?_insert_eq_some, List.exists_mem_cons_iff, isRead]
        constructor
        · rintro ((⟨rfl, rfl⟩ | ⟨-, before⟩) | later)
          · exact .inr (.inl rfl)
          · exact .inl before
          · exact .inr (.inr later)
        · rintro (before | same | later)
          · refine .inl (.inr ⟨fun same => ?_, before⟩)
            subst same
            simp [absent] at before
          · cases same
            exact .inl (.inl ⟨rfl, rfl⟩)
          · exact .inr later

variable [TransCmp cmp] [LawfulEqCmp cmp]

/-- A map whose entries are read under different keys is copied whole. -/
theorem copy_ok (read : K → V → Except ε (L × W)) (duplicate : L → Option ε)
    (source : TreeMap K V cmp)
    (reads : ∀ name held, source[name]? = some held → ∃ result, read name held = .ok result)
    (distinct : ∀ name held other otherHeld key value otherValue, source[name]? = some held →
      source[other]? = some otherHeld → read name held = .ok (key, value) →
      read other otherHeld = .ok (key, otherValue) → name = other) :
    ∃ copied : TreeMap L W cmp', copy read duplicate source = .ok copied ∧ ∀ key value,
      copied[key]? = some value ↔
        ∃ name held, source[name]? = some held ∧ read name held = .ok (key, value) := by
  have isEntry {entry : K × V} (member : entry ∈ source.toList) : source[entry.1]? = some entry.2 :=
    TreeMap.mem_toList_iff_getElem?_eq_some.mp member
  obtain ⟨copied, run, lookups⟩ := copyEntries_ok read duplicate source.toList
    (∅ : TreeMap L W cmp')
    (fun entry member => reads entry.1 entry.2 (isEntry member))
    (by
      refine source.distinct_keys_toList.imp_of_mem fun {first second} isFirst isSecond apart => ?_
      rintro ⟨key, value⟩ ⟨other, otherValue⟩ one two rfl
      refine apart (LawfulEqCmp.compare_eq_iff_eq.mpr ?_)
      exact distinct _ _ _ _ _ _ _ (isEntry isFirst) (isEntry isSecond) one two)
    (by simp)
  refine ⟨copied, run, fun key value => ?_⟩
  rw [lookups]
  constructor
  · rintro (held | ⟨entry, member, isRead⟩)
    · simp at held
    · exact ⟨entry.1, entry.2, isEntry member, isRead⟩
  · rintro ⟨name, held, isHeld, isRead⟩
    exact .inr ⟨(name, held), TreeMap.mem_toList_iff_getElem?_eq_some.mpr isHeld, isRead⟩

theorem getElem?_rekey {rename : K → L} (injective : Function.Injective rename) (change : V → W)
    (source : TreeMap K V cmp) (key : L) (value : W) :
    (rekey rename change source : TreeMap L W cmp')[key]? = some value ↔
      ∃ name held, source[name]? = some held ∧ rename name = key ∧ change held = value := by
  have reads : ∃ copied : TreeMap L W cmp',
      copy (ε := Unit) (fun key value => .ok (rename key, change value)) (fun _ => none) source =
        .ok copied ∧ _ :=
    copy_ok _ _ source (fun _ _ _ => ⟨_, rfl⟩) (by
      intro name held other otherHeld key value otherValue _ _ one two
      cases one
      exact injective (Prod.ext_iff.mp (Except.ok.inj two)).1.symm)
  obtain ⟨copied, run, lookups⟩ := reads
  rw [copy_pure] at run
  cases run
  simpa using lookups key value

/-- What is written under other keys is read back, where each entry is. -/
theorem copy_rekey {V' : Type} {rename : K → L} (injective : Function.Injective rename)
    (change : V → W) (read : L → W → Except ε (K × V')) (duplicate : K → Option ε)
    (source : TreeMap K V cmp) (R : V → V' → Prop)
    (reads : ∀ key value, source[key]? = some value →
      ∃ back, read (rename key) (change value) = .ok (key, back) ∧ R value back) :
    ∃ copied : TreeMap K V' cmp,
      copy read duplicate (rekey rename change source : TreeMap L W cmp') = .ok copied ∧
        ∀ key : K, Option.Rel R source[key]? copied[key]? := by
  have entry {name : L} {held : W}
      (found : (rekey rename change source : TreeMap L W cmp')[name]? = some held) :
      ∃ key value back, source[key]? = some value ∧ rename key = name ∧
        read name held = .ok (key, back) ∧ R value back := by
    obtain ⟨key, value, isEntry, rfl, rfl⟩ := (getElem?_rekey injective change _ _ _).mp found
    obtain ⟨back, isRead, related⟩ := reads key value isEntry
    exact ⟨key, value, back, isEntry, rfl, isRead, related⟩
  have whole : ∃ copied : TreeMap K V' cmp,
      copy read duplicate (rekey rename change source : TreeMap L W cmp') = .ok copied ∧ _ :=
    copy_ok read duplicate _
      (fun name held found => by
        obtain ⟨key, value, back, -, -, isRead, -⟩ := entry found
        exact ⟨(key, back), isRead⟩)
      (fun name held other otherHeld key value otherValue found otherFound isRead otherRead => by
        obtain ⟨first, _, _, -, rfl, firstRead, -⟩ := entry found
        obtain ⟨second, _, _, -, rfl, secondRead, -⟩ := entry otherFound
        cases isRead.symm.trans firstRead
        cases otherRead.symm.trans secondRead
        rfl)
  obtain ⟨copied, run, lookups⟩ := whole
  refine ⟨copied, run, fun key => ?_⟩
  cases held : source[key]? with
  | none =>
      have absent : copied[key]? = none := by
        rw [Option.eq_none_iff_forall_ne_some]
        intro back found
        obtain ⟨name, written, isWritten, isRead⟩ := (lookups key back).mp found
        obtain ⟨own, value, _, isEntry, -, ownRead, -⟩ := entry isWritten
        cases isRead.symm.trans ownRead
        simp [held] at isEntry
      rw [absent]
      exact .none
  | some value =>
      obtain ⟨back, isRead, related⟩ := reads key value held
      have found : copied[key]? = some back := (lookups key back).mpr
        ⟨rename key, change value,
          (getElem?_rekey injective change _ _ _).mpr ⟨key, value, held, rfl, rfl⟩, isRead⟩
      rw [found]
      exact .some related

end Lookups

end Usd8Core.Lib.MapCopy
