import Usd8Core.Lib.CheckedCall
import Mathlib.Data.Fintype.EquivFin
import Mathlib.Data.List.Basic
import Mathlib.Data.Nat.Log
import Mathlib.Tactic.Ring
import Mathlib.Tactic.NormNum

/-!
# Big-endian words, digests and account addresses

Every commitment of the protocol hashes a concatenation of 32-byte big-endian
words.  A word list is recovered from its bytes, so a collision-free hash binds
every field that was encoded.
-/

set_option autoImplicit false

namespace Usd8Core.Lib.ByteWords

open Usd8Core.Lib.CheckedCall

abbrev Byte := UInt8

/-- The low `length` bytes of a natural, most significant first. -/
def beBytes : Nat → Nat → List Byte
  | 0, _ => []
  | length + 1, value => beBytes length (value / 256) ++ [UInt8.ofNat (value % 256)]

@[simp] theorem beBytes_length (length value : Nat) :
    (beBytes length value).length = length := by
  induction length generalizing value with
  | zero => rfl
  | succ length ih => simp [beBytes, ih]

theorem beBytes_injective {length first second : Nat}
    (firstFits : first < 256 ^ length) (secondFits : second < 256 ^ length)
    (same : beBytes length first = beBytes length second) : first = second := by
  induction length generalizing first second with
  | zero =>
      simp only [pow_zero] at firstFits secondFits
      omega
  | succ length ih =>
      rw [pow_succ] at firstFits secondFits
      simp only [beBytes] at same
      obtain ⟨high, low⟩ := List.append_inj same (by simp)
      have highEq : first / 256 = second / 256 :=
        ih (Nat.div_lt_of_lt_mul (by rwa [Nat.mul_comm] at firstFits))
          (Nat.div_lt_of_lt_mul (by rwa [Nat.mul_comm] at secondFits)) high
      have lowEq : first % 256 = second % 256 := by
        have byteEq := congrArg UInt8.toNat (List.singleton_inj.mp low)
        simpa using byteEq
      omega

theorem beBytes_add (high low value : Nat) :
    beBytes (high + low) value = beBytes high (value / 256 ^ low) ++ beBytes low value := by
  induction low generalizing value with
  | zero => simp [beBytes]
  | succ low ih =>
      rw [← Nat.add_assoc, beBytes, ih, beBytes, List.append_assoc,
        Nat.div_div_eq_div_mul, pow_succ, Nat.mul_comm 256]

theorem beBytes_zero (length : Nat) : beBytes length 0 = List.replicate length 0 := by
  induction length with
  | zero => rfl
  | succ length ih => simp [beBytes, ih, List.replicate_succ']

/-- A short big-endian text, right-aligned in a longer field. -/
theorem beBytes_pad (high low value : Nat) (fits : value < 256 ^ low) :
    List.replicate high 0 ++ beBytes low value = beBytes (high + low) value := by
  rw [beBytes_add, Nat.div_eq_of_lt fits, beBytes_zero]

/-! ## Word lists -/

theorem wordBound_eq : uintBound 256 = 256 ^ 32 := by norm_num [uintBound]

@[irreducible] def wordBytes (value : Nat) : List Byte := beBytes 32 value

theorem wordBytes_length (value : Nat) : (wordBytes value).length = 32 := by
  rw [wordBytes, beBytes_length]

theorem wordBytes_injective {first second : Nat} (firstFits : first < uintBound 256)
    (secondFits : second < uintBound 256) (same : wordBytes first = wordBytes second) :
    first = second := by
  rw [wordBound_eq] at firstFits secondFits
  rw [wordBytes, wordBytes] at same
  exact beBytes_injective firstFits secondFits same

def encodeWords (words : List Nat) : List Byte := words.flatMap wordBytes

@[simp] theorem encodeWords_nil : encodeWords [] = [] := rfl

theorem encodeWords_cons (word : Nat) (rest : List Nat) :
    encodeWords (word :: rest) = wordBytes word ++ encodeWords rest := rfl

theorem encodeWords_append (first second : List Nat) :
    encodeWords (first ++ second) = encodeWords first ++ encodeWords second := by
  simp [encodeWords]

theorem encodeWords_length (words : List Nat) :
    (encodeWords words).length = 32 * words.length := by
  induction words with
  | nil => rfl
  | cons word rest ih =>
      rw [encodeWords_cons, List.length_append, wordBytes_length, ih, List.length_cons]
      ring

theorem encodeWords_injective : ∀ (first second : List Nat),
    (∀ word ∈ first, word < uintBound 256) → (∀ word ∈ second, word < uintBound 256) →
      encodeWords first = encodeWords second → first = second := by
  intro first
  induction first with
  | nil =>
      intro second _ _ same
      have lengths := congrArg List.length same
      simp only [encodeWords_nil, List.length_nil, encodeWords_length] at lengths
      exact (List.eq_nil_of_length_eq_zero (by omega)).symm
  | cons word rest ih =>
      intro second firstFits secondFits same
      cases second with
      | nil =>
          have lengths := congrArg List.length same
          simp [encodeWords_length] at lengths
      | cons other more =>
          rw [encodeWords_cons, encodeWords_cons] at same
          obtain ⟨headBytes, tailBytes⟩ :=
            List.append_inj same (by rw [wordBytes_length, wordBytes_length])
          have headEq : word = other :=
            wordBytes_injective (firstFits word (by simp)) (secondFits other (by simp)) headBytes
          have tailEq : rest = more := by
            apply ih more _ _ tailBytes
            · intro item member
              exact firstFits item (by simp [member])
            · intro item member
              exact secondFits item (by simp [member])
          rw [headEq, tailEq]

/-! ## Minimal big-endian texts -/

/-- The bytes of the shortest big-endian text; zero takes one byte. -/
def byteLength (value : Nat) : Nat := Nat.log2 value / 8 + 1

/-- `BigUint::to_bytes_be`. -/
def toBytesBe (value : Nat) : List Byte := beBytes (byteLength value) value

theorem lt_pow_byteLength (value : Nat) : value < 256 ^ byteLength value := by
  have logBound : value < 2 ^ (Nat.log2 value + 1) := Nat.lt_log2_self
  have exponent : Nat.log2 value + 1 ≤ 8 * byteLength value := by
    unfold byteLength
    omega
  have base : (256 : Nat) ^ byteLength value = 2 ^ (8 * byteLength value) := by
    rw [pow_mul]
    norm_num
  rw [base]
  exact lt_of_lt_of_le logBound (Nat.pow_le_pow_right (by norm_num) exponent)

theorem byteLength_le_iff (value : Nat) : byteLength value ≤ 32 ↔ value < uintBound 256 := by
  constructor
  · intro short
    rw [wordBound_eq]
    exact lt_of_lt_of_le (lt_pow_byteLength value)
      (Nat.pow_le_pow_right (by norm_num) short)
  · intro fits
    by_cases zero : value = 0
    · subst zero
      decide
    · have logBound : Nat.log2 value < 256 := (Nat.log2_lt zero).mpr fits
      unfold byteLength
      omega

/-! ## Digests and addresses -/

/-- A `bytes32` value, ordered as its 32 big-endian bytes are. -/
structure Hash where
  val : Nat
  isLt : val < uintBound 256
  deriving DecidableEq

def Hash.zero : Hash := ⟨0, uintBound_pos 256⟩

instance : Inhabited Hash := ⟨Hash.zero⟩

def Hash.ofNat (value : Nat) : Hash := ⟨value % uintBound 256, Nat.mod_lt _ (uintBound_pos 256)⟩

def Hash.bytes (hash : Hash) : List Byte := wordBytes hash.val

theorem Hash.ext_val {first second : Hash} (same : first.val = second.val) :
    first = second := by
  cases first
  cases second
  cases same
  rfl

@[simp] theorem Hash.bytes_length (hash : Hash) : hash.bytes.length = 32 :=
  wordBytes_length hash.val

theorem Hash.bytes_injective {first second : Hash} (same : first.bytes = second.bytes) :
    first = second := by
  apply Hash.ext_val
  exact wordBytes_injective first.isLt second.isLt same

/-- A 20-byte account address. -/
structure Address where
  val : Nat
  isLt : val < uintBound 160
  deriving DecidableEq

def Address.ofNat (value : Nat) : Address := ⟨value % uintBound 160, Nat.mod_lt _ (uintBound_pos 160)⟩

/-- `address(0)`. -/
def Address.zero : Address := ⟨0, uintBound_pos 160⟩

instance : Inhabited Address := ⟨Address.zero⟩

theorem Address.ext_val {first second : Address} (same : first.val = second.val) :
    first = second := by
  cases first
  cases second
  cases same
  rfl

def Address.equivFin : Address ≃ Fin (uintBound 160) where
  toFun address := ⟨address.val, address.isLt⟩
  invFun index := ⟨index.val, index.isLt⟩
  left_inv _ := rfl
  right_inv _ := rfl

instance : Finite Address := Finite.of_equiv (Fin (uintBound 160)) Address.equivFin.symm

/-- Chosen, not computed: no proof should ever enumerate the accounts. -/
noncomputable instance : Fintype Address := Fintype.ofFinite Address

theorem Address.val_lt_word (address : Address) : address.val < uintBound 256 :=
  lt_trans address.isLt (by norm_num [uintBound])

/-- The bytes of an ASCII literal. -/
def asciiBytes (text : String) : List Byte := text.toList.map fun c => UInt8.ofNat c.toNat

/-! ## Hexadecimal texts -/

def hexDigit (value : Nat) : Char :=
  Char.ofNat (if value < 10 then 48 + value else 87 + value)

def hexByte (byte : Byte) : List Char :=
  [hexDigit (byte.toNat / 16), hexDigit (byte.toNat % 16)]

/-- `hash_hex`: the `0x`-prefixed lower-case text of a digest. -/
def hashHex (hash : Hash) : String :=
  String.ofList ('0' :: 'x' :: hash.bytes.flatMap hexByte)

/-- The `0x`-prefixed lower-case text of an address. -/
def addressHex (address : Address) : String :=
  String.ofList ('0' :: 'x' :: (beBytes 20 address.val).flatMap hexByte)

theorem hexDigit_injective : ∀ first < 16, ∀ second < 16,
    hexDigit first = hexDigit second → first = second := by
  decide

theorem hexByte_injective {first second : Byte} (same : hexByte first = hexByte second) :
    first = second := by
  unfold hexByte at same
  have firstBound := first.toNat_lt
  have secondBound := second.toNat_lt
  have high := hexDigit_injective _ (by omega) _ (by omega) (List.cons.inj same).1
  have low := hexDigit_injective _ (by omega) _ (by omega)
    (List.singleton_inj.mp (List.cons.inj same).2)
  exact UInt8.toNat_inj.mp (by omega)

theorem flatMap_hexByte_injective : ∀ (first second : List Byte),
    first.flatMap hexByte = second.flatMap hexByte → first = second := by
  intro first
  induction first with
  | nil =>
      intro second same
      cases second with
      | nil => rfl
      | cons byte rest => simp [hexByte] at same
  | cons byte rest ih =>
      intro second same
      cases second with
      | nil => simp [hexByte] at same
      | cons other more =>
          rw [List.flatMap_cons, List.flatMap_cons] at same
          obtain ⟨headChars, tailChars⟩ := List.append_inj same (by simp [hexByte])
          rw [hexByte_injective headChars, ih more tailChars]

theorem hashHex_injective {first second : Hash} (same : hashHex first = hashHex second) :
    first = second := by
  have chars := String.ofList_injective same
  apply Hash.bytes_injective
  exact flatMap_hexByte_injective _ _ (List.cons.inj (List.cons.inj chars).2).2

/-! ## Reading hexadecimal texts -/

def strip0x (text : String) : Option (List Char) :=
  match text.toList with
  | '0' :: 'x' :: rest => some rest
  | _ => none

def hexValue (c : Char) : Option Nat :=
  if c.isDigit then some (c.toNat - 48)
  else if 'a' ≤ c ∧ c ≤ 'f' then some (c.toNat - 87)
  else if 'A' ≤ c ∧ c ≤ 'F' then some (c.toNat - 55)
  else none

def decodeHexPairs : List Char → Option (List Nat)
  | [] => some []
  | high :: low :: rest => do
      let high ← hexValue high
      let low ← hexValue low
      let bytes ← decodeHexPairs rest
      some ((16 * high + low) :: bytes)
  | [_] => none

/-- The number that big-endian bytes spell. -/
def beValue (bytes : List Nat) : Nat := bytes.foldl (fun value byte => 256 * value + byte) 0

theorem hexValue_hexDigit : ∀ value < 16, hexValue (hexDigit value) = some value := by
  decide

theorem decodeHexPairs_flatMap_hexByte (bytes : List Byte) :
    decodeHexPairs (bytes.flatMap hexByte) = some (bytes.map UInt8.toNat) := by
  induction bytes with
  | nil => rfl
  | cons byte rest ih =>
      have bound := byte.toNat_lt
      have high := hexValue_hexDigit (byte.toNat / 16) (by omega)
      have low := hexValue_hexDigit (byte.toNat % 16) (by omega)
      have whole : 16 * (byte.toNat / 16) + byte.toNat % 16 = byte.toNat := by omega
      simp [List.flatMap_cons, hexByte, decodeHexPairs, high, low, ih, whole]

theorem beValue_beBytes (length value : Nat) (fits : value < 256 ^ length) :
    beValue ((beBytes length value).map UInt8.toNat) = value := by
  induction length generalizing value with
  | zero =>
      rw [pow_zero] at fits
      have zero : value = 0 := by omega
      rw [zero]
      rfl
  | succ length ih =>
      rw [pow_succ, Nat.mul_comm] at fits
      have shorter := ih (value / 256) (Nat.div_lt_of_lt_mul fits)
      rw [beBytes, List.map_append, beValue, List.foldl_append]
      change 256 * beValue ((beBytes length (value / 256)).map UInt8.toNat) +
        (UInt8.ofNat (value % 256)).toNat = value
      rw [shorter, UInt8.toNat_ofNat']
      omega

end Usd8Core.Lib.ByteWords
