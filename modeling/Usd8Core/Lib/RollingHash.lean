import Mathlib.Data.List.Forall2
import Mathlib.Data.List.Induction
import Mathlib.Data.Set.Function

/-!
# Rolling commitments

A log committed by hashing every item together with the digest before it.  A
collision never happens silently: if the strings that were hashed have distinct
digests, none of them the start value, then the final digest determines the log.
-/

set_option autoImplicit false

namespace Usd8Core.Lib.RollingHash

section Rolling

variable {Item Text Digest : Type} (hash : Text → Digest) (text : Digest → Item → Text)

/-- The digest after the items. -/
def rollFrom (start : Digest) : List Item → Digest
  | [] => start
  | item :: rest => rollFrom (hash (text start item)) rest

/-- The strings hashed on the way, in order. -/
def rolledTexts (start : Digest) : List Item → List Text
  | [] => []
  | item :: rest => text start item :: rolledTexts (hash (text start item)) rest

@[simp] theorem rollFrom_nil (start : Digest) : rollFrom hash text start [] = start := rfl

@[simp] theorem rolledTexts_nil (start : Digest) : rolledTexts hash text start [] = [] := rfl

theorem rollFrom_concat (start : Digest) (items : List Item) (last : Item) :
    rollFrom hash text start (items ++ [last]) =
      hash (text (rollFrom hash text start items) last) := by
  induction items generalizing start with
  | nil => rfl
  | cons item rest ih => simpa [rollFrom] using ih (hash (text start item))

theorem rolledTexts_concat (start : Digest) (items : List Item) (last : Item) :
    rolledTexts hash text start (items ++ [last]) =
      rolledTexts hash text start items ++ [text (rollFrom hash text start items) last] := by
  induction items generalizing start with
  | nil => rfl
  | cons item rest ih => simpa [rolledTexts, rollFrom] using ih (hash (text start item))

/-- A log whose last digest is not the start value cannot be empty. -/
theorem eq_nil_of_rollFrom_eq_start (start : Digest) (items : List Item)
    (fresh : ∀ string ∈ rolledTexts hash text start items, hash string ≠ start)
    (reached : rollFrom hash text start items = start) : items = [] := by
  rcases List.eq_nil_or_concat items with empty | ⟨before, last, rfl⟩
  · exact empty
  · rw [List.concat_eq_append] at reached fresh
    rw [rollFrom_concat] at reached
    rw [rolledTexts_concat] at fresh
    exact absurd reached (fresh _ (by simp))

/-- Equal digests bind the two logs item by item, as far as the hashed strings tell the
items apart.  The induction removes the last items: both strings were hashed, so they are
equal, and with them the digests before. -/
theorem rollFrom_binds (start : Digest) (same : Item → Item → Prop) (first : List Item) :
    ∀ second : List Item,
      Set.InjOn hash { string |
        string ∈ rolledTexts hash text start first ++ rolledTexts hash text start second } →
      (∀ string ∈ rolledTexts hash text start first ++ rolledTexts hash text start second,
        hash string ≠ start) →
      (∀ a ∈ first, ∀ b ∈ second, ∀ before before' : Digest,
        text before a = text before' b → before = before' ∧ same a b) →
      rollFrom hash text start first = rollFrom hash text start second →
      List.Forall₂ same first second := by
  induction first using List.reverseRecOn with
  | nil =>
      intro second _ fresh _ reached
      have empty : second = [] := by
        apply eq_nil_of_rollFrom_eq_start hash text start second
        · intro string member
          exact fresh string (by simp [member])
        · exact reached.symm
      rw [empty]
      exact List.Forall₂.nil
  | append_singleton items last ih =>
      intro second injective fresh recovers reached
      rcases List.eq_nil_or_concat second with rfl | ⟨items', last', rfl⟩
      · have empty := eq_nil_of_rollFrom_eq_start hash text start (items ++ [last])
          (fun string member => fresh string (by simp [member])) reached
        simp at empty
      · rw [List.concat_eq_append] at reached injective fresh recovers ⊢
        rw [rollFrom_concat, rollFrom_concat] at reached
        simp only [rolledTexts_concat] at injective fresh
        have sameText : text (rollFrom hash text start items) last =
            text (rollFrom hash text start items') last' :=
          injective (by simp) (by simp) reached
        obtain ⟨sameBefore, sameLast⟩ := recovers last (by simp) last' (by simp) _ _ sameText
        have sameItems : List.Forall₂ same items items' := by
          apply ih items' _ _ _ sameBefore
          · apply injective.mono
            intro string member
            rcases List.mem_append.mp member with earlier | earlier <;> simp [earlier]
          · intro string member
            apply fresh
            rcases List.mem_append.mp member with earlier | earlier <;> simp [earlier]
          · intro a aMember b bMember
            exact recovers a (by simp [aMember]) b (by simp [bMember])
        exact List.rel_append sameItems (List.Forall₂.cons sameLast List.Forall₂.nil)

end Rolling

end Usd8Core.Lib.RollingHash
