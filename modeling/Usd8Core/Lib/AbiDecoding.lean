import Usd8Core.Lib.ByteWords

/-!
# Decoding ABI arguments

Solidity's decoder follows the offsets it is given: it asks that offsets and lengths are
below `2 ^ 64` and that every read stays inside the arguments, and for nothing else.
A decoder on machine words reads the same where the arguments fit the address space.
-/

set_option autoImplicit false

namespace Usd8Core.Lib.AbiDecoding

open Usd8Core.Lib.ByteWords
open Usd8Core.Lib.CheckedCall

/-- The offsets and lengths of a 64-bit machine. -/
def pointerBound : Nat := 2 ^ 64

def wordValue (bytes : List Byte) : Nat := beValue (bytes.map UInt8.toNat)

/-- `count` words of 32 bytes each. -/
def chunks : Nat → List Byte → List (List Byte)
  | 0, _ => []
  | count + 1, bytes => bytes.take 32 :: chunks count (bytes.drop 32)

/-! ## The decoder of the EVM's contracts -/

section Decoder

variable (data : List Byte)

/-- `len` bytes from `start`, all inside. -/
def slice (start len : Nat) : Option (List Byte) :=
  if start + len ≤ data.length then some ((data.drop start).take len) else none

/-- An offset or a length. -/
def pointerAt (start : Nat) : Option Nat :=
  ((slice data start 32).map wordValue).filter (· < pointerBound)

/-- A `uint256[]` whose length stands at `start`. -/
def wordsAt (start : Nat) : Option (List Nat) := do
  let count ← pointerAt data start
  let area ← slice data (start + 32) (32 * count)
  pure ((chunks count area).map wordValue)

/-- A `bytes` whose length stands at `start`. -/
def bytesAt (start : Nat) : Option (List Byte) := do
  let len ← pointerAt data start
  slice data (start + 32) len

end Decoder

/-! ## The same on machine words -/

/-- `data.get(start..start.checked_add(len)?)` -/
def checkedSlice (data : List Byte) (start len : Nat) : Option (List Byte) :=
  if start + len < pointerBound then slice data start len else none

/-- `n.checked_mul(256)?.checked_add(b)?` over the bytes. -/
def checkedValue (bytes : List Byte) : Option Nat :=
  bytes.foldlM (fun value byte =>
    if value * 256 + byte.toNat < pointerBound then some (value * 256 + byte.toNat) else none) 0

theorem slice_length {data part : List Byte} {start len : Nat}
    (read : slice data start len = some part) : part.length = len := by
  obtain ⟨inside, ⟨⟩⟩ := Option.ite_none_right_eq_some.mp read
  rw [List.length_take, List.length_drop]
  omega

/-- A text that fits the address space is read alike. -/
theorem checkedSlice_eq {data : List Byte} (fits : data.length < pointerBound) (start len : Nat) :
    checkedSlice data start len = slice data start len := by
  unfold checkedSlice
  split
  · rfl
  next outside => rw [slice, if_neg (by omega)]

theorem beValue_foldl (bytes : List Nat) (start : Nat) :
    bytes.foldl (fun value byte => 256 * value + byte) start =
      start * 256 ^ bytes.length + beValue bytes := by
  induction bytes generalizing start with
  | nil => simp [beValue]
  | cons byte rest ih =>
      have own := ih (256 * 0 + byte)
      rw [List.foldl_cons, ih, beValue.eq_def (byte :: rest), List.foldl_cons, own,
        List.length_cons, Nat.pow_succ]
      ring

/-- Digits only add: once a prefix is too large the whole is. -/
theorem checkedValue_foldlM (bytes : List Byte) (start : Nat) (small : start < pointerBound) :
    bytes.foldlM (fun value byte =>
      if value * 256 + byte.toNat < pointerBound then some (value * 256 + byte.toNat)
      else none) start =
      (some ((bytes.map UInt8.toNat).foldl (fun value byte => 256 * value + byte) start)).filter
        (· < pointerBound) := by
  induction bytes generalizing start with
  | nil => simp [Option.filter_some, small, pure]
  | cons byte rest ih =>
      rw [List.foldlM_cons, List.map_cons, List.foldl_cons, Nat.mul_comm 256 start]
      by_cases fits : start * 256 + byte.toNat < pointerBound
      · rw [if_pos fits]
        exact ih _ fits
      · rw [if_neg fits, beValue_foldl]
        have grows : start * 256 + byte.toNat ≤
            (start * 256 + byte.toNat) * 256 ^ (rest.map UInt8.toNat).length :=
          Nat.le_mul_of_pos_right _ (Nat.pow_pos (by decide))
        have large : ¬ (start * 256 + byte.toNat) * 256 ^ (rest.map UInt8.toNat).length +
            beValue (rest.map UInt8.toNat) < pointerBound := by omega
        simp only [Option.filter_some, decide_eq_true_eq, if_neg large]
        rfl

theorem checkedValue_eq (bytes : List Byte) :
    checkedValue bytes = (some (wordValue bytes)).filter (· < pointerBound) :=
  checkedValue_foldlM bytes 0 (by decide)

/-- A machine reads offsets and lengths as the EVM does. -/
theorem pointerAt_eq {data : List Byte} (fits : data.length < pointerBound) (start : Nat) :
    (checkedSlice data start 32).bind checkedValue = pointerAt data start := by
  rw [checkedSlice_eq fits, pointerAt]
  cases slice data start 32 with
  | none => rfl
  | some word => exact checkedValue_eq word

/-! ## Words and values -/

theorem wordValue_append_singleton (bytes : List Byte) (byte : Byte) :
    wordValue (bytes ++ [byte]) = 256 * wordValue bytes + byte.toNat := by
  simp [wordValue, beValue, List.foldl_append]

/-- The big-endian bytes of what bytes spell. -/
theorem beBytes_wordValue (bytes : List Byte) : beBytes bytes.length (wordValue bytes) = bytes := by
  induction bytes using List.reverseRecOn with
  | nil => rfl
  | append_singleton rest byte ih =>
      have small := byte.toNat_lt
      have quotient : (256 * wordValue rest + byte.toNat) / 256 = wordValue rest := by omega
      have digit : (256 * wordValue rest + byte.toNat) % 256 = byte.toNat := by omega
      rw [List.length_append, List.length_singleton, beBytes, wordValue_append_singleton, quotient,
        digit, ih, UInt8.ofNat_toNat]

theorem wordBytes_wordValue {word : List Byte} (whole : word.length = 32) :
    wordBytes (wordValue word) = word := by
  rw [wordBytes, ← whole]
  exact beBytes_wordValue word

theorem wordValue_wordBytes {value : Nat} (fits : value < uintBound 256) :
    wordValue (wordBytes value) = value := by
  rw [wordBound_eq] at fits
  rw [wordBytes]
  exact beValue_beBytes 32 value fits

theorem chunks_length (count : Nat) (bytes : List Byte) : (chunks count bytes).length = count := by
  induction count generalizing bytes with
  | zero => rfl
  | succ count ih => simp [chunks, ih]

/-- Of enough bytes every word is whole. -/
theorem mem_chunks_length {count : Nat} {bytes : List Byte} (enough : 32 * count ≤ bytes.length)
    {word : List Byte} (member : word ∈ chunks count bytes) : word.length = 32 := by
  induction count generalizing bytes with
  | zero => cases member
  | succ count ih =>
      rcases List.mem_cons.mp member with rfl | later
      · rw [List.length_take]
        omega
      · apply ih _ later
        rw [List.length_drop]
        omega

end Usd8Core.Lib.AbiDecoding
