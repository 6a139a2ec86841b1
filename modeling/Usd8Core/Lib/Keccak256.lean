import Usd8Core.Lib.ByteWords

/-!
# Keccak-256

The sponge with rate 136 bytes and capacity 512 bits, on the 1600-bit state as
one natural: lane `x + 5 * y` is bits `64 * (x + 5 * y)` up.  Each step of the
permutation acts on all lanes or rows at once by shifts and masks, so that the
kernel evaluates a digest with a few thousand operations on naturals.
-/

set_option autoImplicit false

namespace Usd8Core.Lib.Keccak256

open Usd8Core.Lib.ByteWords
open Usd8Core.Lib.CheckedCall

/-- `count` copies of a value, `width` bits apart. -/
def spread (value width : Nat) : Nat → Nat
  | 0 => 0
  | count + 1 => Nat.lor (Nat.shiftLeft (spread value width count) width) value

def ones (bits : Nat) : Nat := Nat.pow 2 bits - 1

def rotl64 (lane amount : Nat) : Nat :=
  Nat.land (Nat.lor (Nat.shiftLeft lane amount) (Nat.shiftRight lane (64 - amount))) (ones 64)

/-! ## The permutation -/

/-- Xor each column's two neighbouring parities into it. -/
def theta (s : Nat) : Nat :=
  let parity := Nat.land (Nat.xor s (Nat.xor (Nat.shiftRight s 320)
    (Nat.xor (Nat.shiftRight s 640) (Nat.xor (Nat.shiftRight s 960) (Nat.shiftRight s 1280)))))
    (ones 320)
  let rotated := Nat.lor (Nat.shiftLeft (Nat.land parity (spread (ones 63) 64 5)) 1)
    (Nat.land (Nat.shiftRight parity 63) (spread 1 64 5))
  let previous :=
    Nat.land (Nat.lor (Nat.shiftLeft parity 64) (Nat.shiftRight parity 256)) (ones 320)
  let following :=
    Nat.land (Nat.lor (Nat.shiftRight rotated 64) (Nat.shiftLeft rotated 256)) (ones 320)
  Nat.xor s (Nat.mul (Nat.xor previous following) (spread 1 320 5))

/-- The lane read, its rotation and the lane written by rho and pi. -/
def laneMoves : List (Nat × Nat × Nat) :=
  [(0, 0, 0), (1, 1, 10), (2, 62, 20), (3, 28, 5), (4, 27, 15),
    (5, 36, 16), (6, 44, 1), (7, 6, 11), (8, 55, 21), (9, 20, 6),
    (10, 3, 7), (11, 10, 17), (12, 43, 2), (13, 25, 12), (14, 39, 22),
    (15, 41, 23), (16, 45, 8), (17, 15, 18), (18, 21, 3), (19, 8, 13),
    (20, 18, 14), (21, 2, 24), (22, 61, 9), (23, 56, 19), (24, 14, 4)]

def rhoPi (s : Nat) : Nat :=
  laneMoves.foldl (fun out move =>
    let lane := Nat.land (Nat.shiftRight s (Nat.mul 64 move.1)) (ones 64)
    Nat.lor out (Nat.shiftLeft (rotl64 lane move.2.1) (Nat.mul 64 move.2.2))) 0

/-- Each lane with the two that follow it in its row. -/
def chi (s : Nat) : Nat :=
  let next := Nat.lor (Nat.land (Nat.shiftRight s 64) (spread (ones 256) 320 5))
    (Nat.shiftLeft (Nat.land s (spread (ones 64) 320 5)) 256)
  let afterNext := Nat.lor (Nat.land (Nat.shiftRight s 128) (spread (ones 192) 320 5))
    (Nat.shiftLeft (Nat.land s (spread (ones 128) 320 5)) 192)
  -- `afterNext` and not `next`, without a complement
  Nat.xor s (Nat.xor afterNext (Nat.land next afterNext))

def roundConstants : List Nat :=
  [0x1, 0x8082, 0x800000000000808a, 0x8000000080008000, 0x808b, 0x80000001,
    0x8000000080008081, 0x8000000000008009, 0x8a, 0x88, 0x80008009, 0x8000000a,
    0x8000808b, 0x800000000000008b, 0x8000000000008089, 0x8000000000008003,
    0x8000000000008002, 0x8000000000000080, 0x800a, 0x800000008000000a,
    0x8000000080008081, 0x8000000000008080, 0x80000001, 0x8000000080008008]

def permute (s : Nat) : Nat :=
  roundConstants.foldl (fun state constant => Nat.xor (chi (rhoPi (theta state))) constant) s

/-! ## The sponge -/

def leNat : List Byte → Nat
  | [] => 0
  | byte :: rest => byte.toNat + 256 * leNat rest

/-- The original Keccak padding, not the one of SHA-3. -/
def padding (length : Nat) : List Byte :=
  if length % 136 = 135 then [0x81]
  else 0x01 :: (List.replicate (134 - length % 136) 0 ++ [0x80])

def absorb : Nat → List Byte → Nat → Nat
  | 0, _, s => s
  | blocks + 1, bytes, s =>
      absorb blocks (bytes.drop 136) (permute (Nat.xor s (leNat (bytes.take 136))))

/-- The first 32 bytes of the state, read as a big-endian number. -/
def squeeze (s : Nat) : Nat :=
  (List.range 32).foldl (fun out i => 256 * out + Nat.shiftRight s (8 * i) % 256) 0

def keccak256 (bytes : List Byte) : Hash :=
  Hash.ofNat (squeeze (absorb (bytes.length / 136 + 1) (bytes ++ padding bytes.length) 0))

example : (keccak256 []).val =
    0xc5d2460186f7233c927e7db2dcc703c0e500b653ca82273b7bfad8045d85a470 := by decide +kernel

example : (keccak256 [97, 98, 99]).val =
    0x4e03657aea45a94fc7d47ba826c8d667c0d1e6e33a64a036ec44f58fa12d6c45 := by decide +kernel

end Usd8Core.Lib.Keccak256
