import Usd8Core.Lib.ByteWords

/-!
# BER encodings

A value is a tag octet, a length and its content octets.  The length is definite, in
one octet or in the fewest that hold it, or it is indefinite: then the content is a
sequence of values closed by two zero octets.  Indefinite lengths nest; `levels`
bounds how deep.
-/

set_option autoImplicit false

namespace Usd8Core.Lib.Ber

open Usd8Core.Lib.ByteWords

/-- The tag number fits the tag octet. -/
def LowTag (tag : Byte) : Prop := tag &&& 0x1f ≠ 0x1f

def Constructed (tag : Byte) : Prop := tag &&& 0x20 ≠ 0

instance (tag : Byte) : Decidable (LowTag tag) := inferInstanceAs (Decidable (_ ≠ _))

instance (tag : Byte) : Decidable (Constructed tag) := inferInstanceAs (Decidable (_ ≠ _))

/-- The length octets of a definite length, without a leading zero. -/
inductive LengthOctets (length : Nat) : List Byte → Prop
  | short (small : length < 0x80) : LengthOctets length [UInt8.ofNat length]
  | long (count : Nat) (least : 256 ^ count ≤ length) (fits : length < 256 ^ (count + 1)) :
      LengthOctets length (UInt8.ofNat (0x80 + (count + 1)) :: beBytes (count + 1) length)

/-- Values in a row, each a tag with its content octets and its encoding. -/
inductive Sequence (one : Byte → List Byte → List Byte → Prop) : List Byte → Prop
  | nil : Sequence one []
  | cons (tag : Byte) (content encoding rest : List Byte) (first : one tag content encoding)
      (later : Sequence one rest) : Sequence one (encoding ++ rest)

/-- An encoding of a value with fewer than `levels` indefinite lengths around one another.
Tag zero is the end of contents. -/
def Element : Nat → Byte → List Byte → List Byte → Prop
  | 0, _, _, _ => False
  | levels + 1, tag, content, encoding =>
      LowTag tag ∧ tag ≠ 0 ∧
        ((∃ octets, LengthOctets content.length octets ∧
            encoding = tag :: (octets ++ content)) ∨
          (Constructed tag ∧ Sequence (Element levels) content ∧
            encoding = tag :: 0x80 :: (content ++ [0, 0])))

section Encodings

variable {levels : Nat} {tag : Byte} {content encoding : List Byte}

theorem Sequence.single {one : Byte → List Byte → List Byte → Prop}
    (first : one tag content encoding) : Sequence one encoding := by
  rw [← List.append_nil encoding]
  exact .cons tag content encoding [] first .nil

theorem Element.definite {octets : List Byte} (low : LowTag tag) (notEnd : tag ≠ 0)
    (length : LengthOctets content.length octets) :
    Element (levels + 1) tag content (tag :: (octets ++ content)) :=
  ⟨low, notEnd, Or.inl ⟨octets, length, rfl⟩⟩

theorem Element.indefinite (low : LowTag tag) (notEnd : tag ≠ 0) (constructed : Constructed tag)
    (values : Sequence (Element levels) content) :
    Element (levels + 1) tag content (tag :: 0x80 :: (content ++ [0, 0])) :=
  ⟨low, notEnd, Or.inr ⟨constructed, values, rfl⟩⟩

theorem LengthOctets.ne_nil {length : Nat} {octets : List Byte}
    (encoded : LengthOctets length octets) : 1 ≤ octets.length := by
  cases encoded <;> simp

/-- A value takes its tag, its length octets and its content. -/
theorem Element.length_le (element : Element levels tag content encoding) :
    content.length + 2 ≤ encoding.length := by
  cases levels with
  | zero => exact element.elim
  | succ levels =>
      obtain ⟨-, -, ⟨octets, length, rfl⟩ | ⟨-, -, rfl⟩⟩ := element
      · have positive := length.ne_nil
        simp only [List.length_cons, List.length_append]
        omega
      · simp only [List.length_cons, List.length_append, List.length_nil]
        omega

/-- A value starts with its tag and one more octet, and the tag is not zero. -/
theorem Element.head (element : Element levels tag content encoding) :
    tag ≠ 0 ∧ ∃ second rest, encoding = tag :: second :: rest := by
  cases levels with
  | zero => exact element.elim
  | succ levels =>
      obtain ⟨-, notEnd, ⟨octets, length, rfl⟩ | ⟨-, -, rfl⟩⟩ := element
      · cases length with
        | short small => exact ⟨notEnd, _, _, rfl⟩
        | long count least fits => exact ⟨notEnd, _, _, rfl⟩
      · exact ⟨notEnd, _, _, rfl⟩

/-- More room for nesting does no harm. -/
theorem Element.mono : ∀ {levels : Nat} {tag : Byte} {content encoding : List Byte},
    Element levels tag content encoding → Element (levels + 1) tag content encoding := by
  intro levels
  induction levels with
  | zero =>
      intro tag content encoding element
      exact element.elim
  | succ levels ih =>
      intro tag content encoding element
      obtain ⟨low, notEnd, definite | ⟨constructed, values, same⟩⟩ := element
      · exact ⟨low, notEnd, Or.inl definite⟩
      · refine ⟨low, notEnd, Or.inr ⟨constructed, ?_, same⟩⟩
        clear same
        induction values with
        | nil => exact .nil
        | cons tag content encoding rest first later tailIh =>
            exact .cons tag content encoding rest (ih first) tailIh

end Encodings

/-! ## An encoding of every value -/

/-- The definite length in its fewest octets. -/
def lengthOctets (length : Nat) : List Byte :=
  if length < 0x80 then [UInt8.ofNat length]
  else UInt8.ofNat (0x80 + byteLength length) :: toBytesBe length

def definiteElement (tag : Byte) (content : List Byte) : List Byte :=
  tag :: (lengthOctets content.length ++ content)

def indefiniteElement (tag : Byte) (content : List Byte) : List Byte :=
  tag :: 0x80 :: (content ++ [0, 0])

theorem lengthOctets_encodes (length : Nat) : LengthOctets length (lengthOctets length) := by
  unfold lengthOctets
  split
  · rename_i small
    exact .short small
  · rename_i large
    apply LengthOctets.long (Nat.log2 length / 8)
    · calc 256 ^ (Nat.log2 length / 8) = 2 ^ (8 * (Nat.log2 length / 8)) := by
            rw [pow_mul]
            norm_num
        _ ≤ 2 ^ Nat.log2 length := Nat.pow_le_pow_right (by omega) (Nat.mul_div_le _ _)
        _ ≤ length := Nat.log2_self_le (by omega)
    · exact lt_pow_byteLength length

theorem definiteElement_element (levels : Nat) {tag : Byte} (content : List Byte)
    (low : LowTag tag) (notEnd : tag ≠ 0) :
    Element (levels + 1) tag content (definiteElement tag content) :=
  Element.definite low notEnd (lengthOctets_encodes content.length)

theorem indefiniteElement_element {levels : Nat} {tag : Byte} {content : List Byte}
    (low : LowTag tag) (notEnd : tag ≠ 0) (constructed : Constructed tag)
    (values : Sequence (Element levels) content) :
    Element (levels + 1) tag content (indefiniteElement tag content) :=
  Element.indefinite low notEnd constructed values

end Usd8Core.Lib.Ber
