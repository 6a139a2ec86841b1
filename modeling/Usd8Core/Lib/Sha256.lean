import Usd8Core.Lib.ByteWords

/-!
# SHA-256 and HMAC

Words are naturals below `2 ^ 32`.
-/

set_option autoImplicit false

namespace Usd8Core.Lib.Sha256

open Usd8Core.Lib.ByteWords

def rotr (word amount : Nat) : Nat :=
  Nat.mod (Nat.lor (Nat.shiftRight word amount) (Nat.shiftLeft word (32 - amount))) (2 ^ 32)

def not32 (word : Nat) : Nat := 2 ^ 32 - 1 - word

def roundConstants : List Nat :=
  [0x428a2f98, 0x71374491, 0xb5c0fbcf, 0xe9b5dba5, 0x3956c25b, 0x59f111f1, 0x923f82a4, 0xab1c5ed5,
    0xd807aa98, 0x12835b01, 0x243185be, 0x550c7dc3, 0x72be5d74, 0x80deb1fe, 0x9bdc06a7, 0xc19bf174,
    0xe49b69c1, 0xefbe4786, 0x0fc19dc6, 0x240ca1cc, 0x2de92c6f, 0x4a7484aa, 0x5cb0a9dc, 0x76f988da,
    0x983e5152, 0xa831c66d, 0xb00327c8, 0xbf597fc7, 0xc6e00bf3, 0xd5a79147, 0x06ca6351, 0x14292967,
    0x27b70a85, 0x2e1b2138, 0x4d2c6dfc, 0x53380d13, 0x650a7354, 0x766a0abb, 0x81c2c92e, 0x92722c85,
    0xa2bfe8a1, 0xa81a664b, 0xc24b8b70, 0xc76c51a3, 0xd192e819, 0xd6990624, 0xf40e3585, 0x106aa070,
    0x19a4c116, 0x1e376c08, 0x2748774c, 0x34b0bcb5, 0x391c0cb3, 0x4ed8aa4a, 0x5b9cca4f, 0x682e6ff3,
    0x748f82ee, 0x78a5636f, 0x84c87814, 0x8cc70208, 0x90befffa, 0xa4506ceb, 0xbef9a3f7, 0xc67178f2]

/-- The 64 words of a block's schedule, the last one first. -/
def schedule (block : List Nat) : Nat → List Nat
  | 0 => block.reverse
  | count + 1 =>
      let words := schedule block count
      let w2 := words.getD 1 0
      let w15 := words.getD 14 0
      let s0 := Nat.xor (Nat.xor (rotr w15 7) (rotr w15 18)) (Nat.shiftRight w15 3)
      let s1 := Nat.xor (Nat.xor (rotr w2 17) (rotr w2 19)) (Nat.shiftRight w2 10)
      Nat.mod (words.getD 15 0 + s0 + words.getD 6 0 + s1) (2 ^ 32) :: words

structure Registers where
  a : Nat
  b : Nat
  c : Nat
  d : Nat
  e : Nat
  f : Nat
  g : Nat
  h : Nat

def initial : Registers :=
  ⟨0x6a09e667, 0xbb67ae85, 0x3c6ef372, 0xa54ff53a, 0x510e527f, 0x9b05688c, 0x1f83d9ab, 0x5be0cd19⟩

def round (r : Registers) (input : Nat × Nat) : Registers :=
  let s1 := Nat.xor (Nat.xor (rotr r.e 6) (rotr r.e 11)) (rotr r.e 25)
  let choice := Nat.xor (Nat.land r.e r.f) (Nat.land (not32 r.e) r.g)
  let first := r.h + s1 + choice + input.1 + input.2
  let s0 := Nat.xor (Nat.xor (rotr r.a 2) (rotr r.a 13)) (rotr r.a 22)
  let majority := Nat.xor (Nat.xor (Nat.land r.a r.b) (Nat.land r.a r.c)) (Nat.land r.b r.c)
  ⟨Nat.mod (first + s0 + majority) (2 ^ 32), r.a, r.b, r.c, Nat.mod (r.d + first) (2 ^ 32),
    r.e, r.f, r.g⟩

def words : List Byte → List Nat
  | b0 :: b1 :: b2 :: b3 :: rest =>
      (((b0.toNat * 256 + b1.toNat) * 256 + b2.toNat) * 256 + b3.toNat) :: words rest
  | _ => []

def compress (state : Registers) (block : List Byte) : Registers :=
  let out := (roundConstants.zip (schedule (words block) 48).reverse).foldl round state
  let add := fun x y => Nat.mod (x + y) (2 ^ 32)
  ⟨add state.a out.a, add state.b out.b, add state.c out.c, add state.d out.d,
    add state.e out.e, add state.f out.f, add state.g out.g, add state.h out.h⟩

def padding (length : Nat) : List Byte :=
  0x80 :: (List.replicate ((119 - length % 64) % 64) 0 ++ beBytes 8 (8 * length))

def absorb : Nat → List Byte → Registers → Registers
  | 0, _, state => state
  | blocks + 1, bytes, state =>
      absorb blocks (bytes.drop 64) (compress state (bytes.take 64))

def Registers.bytes (r : Registers) : List Byte :=
  [r.a, r.b, r.c, r.d, r.e, r.f, r.g, r.h].flatMap (beBytes 4)

def sha256 (bytes : List Byte) : List Byte :=
  let padded := bytes ++ padding bytes.length
  (absorb (padded.length / 64) padded initial).bytes

def hmacSha256 (key message : List Byte) : List Byte :=
  let short := if key.length ≤ 64 then key else sha256 key
  let block := short ++ List.replicate (64 - short.length) 0
  sha256 (block.map (fun byte => byte ^^^ 0x5c) ++
    sha256 (block.map (fun byte => byte ^^^ 0x36) ++ message))

example : sha256 [97, 98, 99] =
    beBytes 32 0xba7816bf8f01cfea414140de5dae2223b00361a396177a9cb410ff61f20015ad := by
  decide +kernel

example : hmacSha256 [107, 101, 121] [97, 98, 99] =
    beBytes 32 0x9c196e32dc0175f86f4b1cb89289d6619de6bee699e4c378e68309ed97a1a6ab := by
  decide +kernel

end Usd8Core.Lib.Sha256
