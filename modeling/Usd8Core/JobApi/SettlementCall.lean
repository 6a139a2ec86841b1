import Usd8Core.JobApi.SettlementVerifier
import Usd8Core.Lib.Keccak256

/-!
# Matching a settlement call

`settlement_call_matches` decodes untrusted calldata on machine words and compares it with
a candidate.  It says yes exactly when Solidity's decoder reads the candidate's root,
payouts and signature, whatever the offsets are.
-/

set_option autoImplicit false

namespace Usd8Core.JobApi

open Usd8Core.Lib.AbiDecoding
open Usd8Core.Lib.ByteWords
open Usd8Core.Lib.CheckedCall

/-! ## The function -/

/-- A function that returns an `Option`: `none` is its early return, an error of `some` panics. -/
abbrev Matching := Except (Option Panic)

instance : HasPanic (Option Panic) := ⟨some⟩

/-- The operator `?` on an `Option`. -/
def present {α : Type} (value : Option α) : Matching α := orRevert value none

def abiWord (bytes : List Byte) : Matching (List Byte) := do
  let padding ← checkedSub 32 bytes.length
  pure (List.replicate padding 0 ++ bytes)

def hexDecode (raw : List Char) : Option (List Byte) :=
  (decodeHexPairs raw).map fun decoded => decoded.map UInt8.ofNat

/-- `&text[count..]`, which panics outside of the text and inside of a character. -/
def dropBytes : List Char → Nat → Option (List Char)
  | chars, 0 => some chars
  | [], _ + 1 => none
  | c :: rest, count + 1 =>
      if c.utf8Size ≤ count + 1 then dropBytes rest (count + 1 - c.utf8Size) else none

def checkedPointer (value : Nat) : Option Nat := if value < pointerBound then some value else none

def range (data : List Byte) (start len : Nat) : Option (List Byte) := checkedSlice data start len

def size (data : List Byte) (start : Nat) : Option Nat := (range data start 32).bind checkedValue

/-- The words of the payouts, compared one by one. -/
def allWords : List (List Byte) → List Nat → Matching Bool
  | word :: words, payout :: payouts => do
      let expected ← abiWord (toBytesBe payout)
      if word = expected then allWords words payouts else pure false
  | _, _ => pure true

section Calls

variable (keccak256 : List Byte → Hash)

def selector (signature : String) : List Byte := (keccak256 (asciiBytes signature)).bytes.take 4

def settleIncidentSignature : String := "settleIncident(bytes32,uint256[],bytes)"

def matchArguments (candidate : Candidate) (args : List Byte) : Matching Bool := do
  let _ ← present (range args 0 96)
  let rootWord ← present (range args 0 32)
  let rootText ← orRevert (dropBytes candidate.input.root.toList 2) (some .indexOutOfBounds)
  let root ← present (hexDecode rootText)
  if rootWord ≠ root then pure false
  else do
    let payouts ← present (size args 32)
    let signature ← present (size args 64)
    let count ← present (size args payouts)
    if count ≠ candidate.input.poolPayouts.length then pure false
    else do
      let signatureLength ← present (size args signature)
      if signatureLength ≠ 65 then pure false
      else do
        let wordsStart ← present (checkedPointer (payouts + 32))
        let wordsLength ← present (checkedPointer (count * 32))
        let words ← present (range args wordsStart wordsLength)
        let same ← allWords (chunks (words.length / 32) words) candidate.input.poolPayouts
        if same = false then pure false
        else do
          let signatureStart ← present (checkedPointer (signature + 32))
          let given ← present (range args signatureStart 65)
          pure (decide (given = candidate.signature))

def matchCall (candidate : Candidate) (input : String) : Matching Bool := do
  let raw ← present (strip0x input)
  let data ← present (hexDecode raw)
  let head ← present (range data 0 4)
  if head ≠ selector keccak256 settleIncidentSignature then pure false
  else matchArguments candidate (data.drop 4)

def settlementCallMatches (candidate : Candidate) (input : String) : Except Panic Bool :=
  match matchCall keccak256 candidate input with
  | .ok result => .ok result
  | .error none => .ok false
  | .error (some reason) => .error reason

/-! ## The decoder of the contract -/

structure SettleArguments where
  root : List Byte
  poolPayouts : List Nat
  signature : List Byte
  deriving DecidableEq

/-- The arguments `(bytes32, uint256[], bytes)`. -/
def decodeArguments (args : List Byte) : Option SettleArguments := do
  let _ ← slice args 0 96
  let root ← slice args 0 32
  let payoutsAt ← pointerAt args 32
  let signatureAt ← pointerAt args 64
  let poolPayouts ← wordsAt args payoutsAt
  let signature ← bytesAt args signatureAt
  pure ⟨root, poolPayouts, signature⟩

/-- A call of `settleIncident` and its arguments. -/
def decodeSettleIncident (data : List Byte) : Option SettleArguments := do
  let head ← slice data 0 4
  if head = selector keccak256 settleIncidentSignature then decodeArguments (data.drop 4) else none

/-- The bytes that a text of calldata writes. -/
def calldata (input : String) : Option (List Byte) := (strip0x input).bind hexDecode

end Calls

/-! ## Deciding a property -/

/-- The call returns whether `holds`, without a panic. -/
def Decides (holds : Prop) (call : Matching Bool) : Prop :=
  (call = .ok true ∧ holds) ∨ ((call = .ok false ∨ call = .error none) ∧ ¬ holds)

section Rules

variable {holds : Prop} {α : Type}

theorem decides_false (fails : ¬ holds) : Decides holds (pure false) := .inr ⟨.inl rfl, fails⟩

theorem decides_present {value : Option α} {next : α → Matching Bool}
    (absent : value = none → ¬ holds)
    (found : ∀ result, value = some result → Decides holds (next result)) :
    Decides holds (present value >>= next) := by
  cases value with
  | none => exact .inr ⟨.inr rfl, absent rfl⟩
  | some result => exact found result rfl

theorem decides_ite {condition : Prop} [Decidable condition] {first second : Matching Bool}
    (whenTrue : condition → Decides holds first)
    (whenFalse : ¬ condition → Decides holds second) :
    Decides holds (if condition then first else second) := by
  split
  · exact whenTrue ‹_›
  · exact whenFalse ‹_›

theorem decides_after {call : Matching α} {result : α} {next : α → Matching Bool}
    (ran : call = .ok result) (rest : Decides holds (next result)) :
    Decides holds (call >>= next) := by
  rw [bind_after ran]
  exact rest

theorem decides_decide {condition : Prop} [Decidable condition] (same : condition ↔ holds) :
    Decides holds (pure (decide condition)) := by
  by_cases true : condition
  · exact .inl ⟨by rw [decide_eq_true true]; rfl, same.mp true⟩
  · exact .inr ⟨.inl (by rw [decide_eq_false true]; rfl), fun held => true (same.mpr held)⟩

theorem Decides.congr {other : Prop} {call : Matching Bool} (decided : Decides holds call)
    (same : holds ↔ other) : Decides other call := by
  rwa [propext same] at decided

end Rules

/-! ## Words -/

theorem abiWord_toBytesBe {payout : Nat} (fits : payout < uintBound 256) :
    abiWord (toBytesBe payout) = .ok (wordBytes payout) := by
  have short : byteLength payout ≤ 32 := (byteLength_le_iff payout).mpr fits
  have length : (toBytesBe payout).length = byteLength payout := by simp [toBytesBe]
  have padding : (checkedSub 32 (toBytesBe payout).length : Matching Nat) =
      .ok (32 - byteLength payout) :=
    (checkedSub_ok_iff _ _ _).mpr ⟨by omega, by rw [length]⟩
  rw [abiWord, bind_after padding, toBytesBe, beBytes_pad _ _ _ (lt_pow_byteLength payout),
    wordBytes, Nat.sub_add_cancel short]
  rfl

theorem allWords_ok {words : List (List Byte)} {payouts : List Nat}
    (lengths : words.length = payouts.length) (whole : ∀ word ∈ words, word.length = 32)
    (fit : ∀ payout ∈ payouts, payout < uintBound 256) :
    allWords words payouts = .ok (decide (words.map wordValue = payouts)) := by
  induction words generalizing payouts with
  | nil =>
      have none : payouts = [] := by simpa [eq_comm] using lengths
      subst none
      rfl
  | cons word words ih =>
      cases payouts with
      | nil => simp at lengths
      | cons payout payouts =>
          have payoutFits := fit payout (by simp)
          have rest := ih (by simpa using lengths) (fun other member => whole other (by simp [member]))
            (fun other member => fit other (by simp [member]))
          rw [allWords, bind_after (abiWord_toBytesBe payoutFits), rest]
          by_cases same : word = wordBytes payout
          · rw [if_pos same, same, List.map_cons, wordValue_wordBytes payoutFits]
            simp
          · have differ : wordValue word ≠ payout := by
              rintro rfl
              exact same (wordBytes_wordValue (whole word (by simp))).symm
            rw [if_neg same]
            simp [differ]
            rfl

/-! ## Machine words and the EVM's -/

section Machine

variable {data : List Byte}

theorem range_eq (fits : data.length < pointerBound) (start len : Nat) :
    range data start len = slice data start len := checkedSlice_eq fits start len

theorem size_eq (fits : data.length < pointerBound) (start : Nat) :
    size data start = pointerAt data start := pointerAt_eq fits start

theorem slice_inside {start len : Nat} {part : List Byte} (read : slice data start len = some part) :
    start + len ≤ data.length := (Option.ite_none_right_eq_some.mp read).1

/-- The text of a digest after its prefix. -/
theorem dropBytes_hashHex (root : Hash) :
    dropBytes (hashHex root).toList 2 = some (root.bytes.flatMap hexByte) := by
  have zeroSize : '0'.utf8Size = 1 := by decide
  have xSize : 'x'.utf8Size = 1 := by decide
  simp [hashHex, dropBytes, zeroSize, xSize]

theorem hexDecode_bytes (bytes : List Byte) : hexDecode (bytes.flatMap hexByte) = some bytes := by
  rw [hexDecode, decodeHexPairs_flatMap_hexByte, Option.map_some, List.map_map]
  have same : (UInt8.ofNat ∘ UInt8.toNat) = id := by
    funext byte
    exact UInt8.ofNat_toNat
  rw [same, List.map_id]

end Machine

theorem wordsAt_eq_some_iff {args : List Byte} {start : Nat} {payouts : List Nat} :
    wordsAt args start = some payouts ↔ ∃ count area, pointerAt args start = some count ∧
      slice args (start + 32) (32 * count) = some area ∧
      (chunks count area).map wordValue = payouts := by
  simp [wordsAt, Option.bind_eq_some_iff]

theorem bytesAt_eq_some_iff {args : List Byte} {start : Nat} {given : List Byte} :
    bytesAt args start = some given ↔ ∃ len, pointerAt args start = some len ∧
      slice args (start + 32) len = some given := by
  simp [bytesAt, Option.bind_eq_some_iff]

theorem decodeArguments_eq_some_iff {args root signature : List Byte} {payouts : List Nat} :
    decodeArguments args = some ⟨root, payouts, signature⟩ ↔
      (∃ heads, slice args 0 96 = some heads) ∧ slice args 0 32 = some root ∧
      ∃ payoutsAt signatureAt, pointerAt args 32 = some payoutsAt ∧
        pointerAt args 64 = some signatureAt ∧ wordsAt args payoutsAt = some payouts ∧
        bytesAt args signatureAt = some signature := by
  constructor
  · intro decoded
    obtain ⟨heads, headsRead, decoded⟩ := Option.bind_eq_some_iff.mp decoded
    obtain ⟨rootWord, rootRead, decoded⟩ := Option.bind_eq_some_iff.mp decoded
    obtain ⟨payoutsAt, payoutsAtRead, decoded⟩ := Option.bind_eq_some_iff.mp decoded
    obtain ⟨signatureAt, signatureAtRead, decoded⟩ := Option.bind_eq_some_iff.mp decoded
    obtain ⟨words, wordsRead, decoded⟩ := Option.bind_eq_some_iff.mp decoded
    obtain ⟨given, givenRead, result⟩ := Option.bind_eq_some_iff.mp decoded
    cases result
    exact ⟨⟨heads, headsRead⟩, rootRead, payoutsAt, signatureAt, payoutsAtRead, signatureAtRead,
      wordsRead, givenRead⟩
  · rintro ⟨⟨heads, headsRead⟩, rootRead, payoutsAt, signatureAt, payoutsAtRead, signatureAtRead,
      wordsRead, givenRead⟩
    simp [decodeArguments, headsRead, rootRead, payoutsAtRead, signatureAtRead, wordsRead, givenRead]

/-- On arguments that fit the address space the reader and the contract's decoder agree. -/
theorem matchArguments_decides {candidate : Candidate} {root : Hash}
    (rootText : candidate.input.root = hashHex root)
    (fit : ∀ payout ∈ candidate.input.poolPayouts, payout < uintBound 256)
    (whole : candidate.signature.length = 65) {args : List Byte}
    (fits : args.length < pointerBound) :
    Decides (decodeArguments args =
        some ⟨root.bytes, candidate.input.poolPayouts, candidate.signature⟩)
      (matchArguments candidate args) := by
  unfold matchArguments
  rw [decodeArguments_eq_some_iff, rootText, dropBytes_hashHex]
  simp only [range_eq fits, size_eq fits]
  refine decides_present (fun none => by simp [none]) fun heads headsRead => ?_
  refine decides_present (fun none => by simp [none]) fun rootWord rootRead => ?_
  have rootDropped : orRevert (some (root.bytes.flatMap hexByte)) (some Panic.indexOutOfBounds) =
      .ok (root.bytes.flatMap hexByte) := rfl
  have rootDecoded : present (hexDecode (root.bytes.flatMap hexByte)) = .ok root.bytes :=
    (orRevert_ok_iff _ _ _).mpr (hexDecode_bytes _)
  refine decides_after rootDropped ?_
  refine decides_after rootDecoded ?_
  refine decides_ite (fun differ => decides_false (by simp [rootRead, differ])) fun same => ?_
  rw [not_not.mp same] at rootRead
  refine decides_present (fun none => by simp [none]) fun payoutsAt payoutsAtRead => ?_
  refine decides_present (fun none => by simp [none]) fun signatureAt signatureAtRead => ?_
  refine decides_present (fun none => by simp [payoutsAtRead, wordsAt_eq_some_iff, none])
    fun count countRead => ?_
  have parts : ((∃ heads, slice args 0 96 = some heads) ∧ slice args 0 32 = some root.bytes ∧
      ∃ payoutsAt signatureAt, pointerAt args 32 = some payoutsAt ∧
        pointerAt args 64 = some signatureAt ∧
        wordsAt args payoutsAt = some candidate.input.poolPayouts ∧
        bytesAt args signatureAt = some candidate.signature) ↔
      (∃ area, slice args (payoutsAt + 32) (32 * count) = some area ∧
        (chunks count area).map wordValue = candidate.input.poolPayouts) ∧
      ∃ len, pointerAt args signatureAt = some len ∧
        slice args (signatureAt + 32) len = some candidate.signature := by
    simp [headsRead, rootRead, payoutsAtRead, signatureAtRead, wordsAt_eq_some_iff, countRead,
      bytesAt_eq_some_iff]
  refine Decides.congr ?_ parts.symm
  refine decides_ite (fun differ => decides_false ?_) fun counted => ?_
  · rintro ⟨⟨area, -, equal⟩, -⟩
    rw [← equal, List.length_map, chunks_length] at differ
    exact differ rfl
  have counted : count = candidate.input.poolPayouts.length := not_not.mp counted
  refine decides_present (fun none => by simp [none]) fun len lenRead => ?_
  refine decides_ite (fun differ => decides_false ?_) fun isWhole => ?_
  · rintro ⟨-, other, otherRead, given⟩
    rw [lenRead] at otherRead
    cases otherRead
    rw [← slice_length given, whole] at differ
    exact differ rfl
  have isWhole : len = 65 := not_not.mp isWhole
  subst isWhole
  -- A start or a length that leaves the machine word is outside of the arguments.
  have inWord : ∀ {start len : Nat} {part : List Byte}, slice args start len = some part →
      checkedPointer start = some start ∧ checkedPointer len = some len := by
    intro start len part read
    have inside := slice_inside read
    exact ⟨if_pos (by omega), if_pos (by omega)⟩
  refine decides_present (fun none => ?_) fun wordsStart startRead => ?_
  · rintro ⟨⟨area, read, -⟩, -⟩
    rw [(inWord read).1] at none
    cases none
  obtain ⟨-, ⟨⟩⟩ := Option.ite_none_right_eq_some.mp startRead
  refine decides_present (fun none => ?_) fun wordsLength lengthRead => ?_
  · rintro ⟨⟨area, read, -⟩, -⟩
    rw [Nat.mul_comm, (inWord read).2] at none
    cases none
  obtain ⟨-, ⟨⟩⟩ := Option.ite_none_right_eq_some.mp lengthRead
  refine decides_present (fun none => ?_) fun words wordsRead => ?_
  · rw [Nat.mul_comm] at none
    simp [none]
  have length := slice_length wordsRead
  have chunked : words.length / 32 = count := by omega
  have compared : allWords (chunks count words) candidate.input.poolPayouts =
      .ok (decide ((chunks count words).map wordValue = candidate.input.poolPayouts)) :=
    allWords_ok (by rw [chunks_length, counted]) (fun word => mem_chunks_length (by omega)) fit
  rw [chunked]
  rw [Nat.mul_comm] at wordsRead
  refine decides_after compared ?_
  refine decides_ite (fun differ => decides_false ?_) fun equal => ?_
  · rintro ⟨⟨area, areaRead, equal⟩, -⟩
    rw [wordsRead] at areaRead
    cases areaRead
    exact of_decide_eq_false differ equal
  have equal : (chunks count words).map wordValue = candidate.input.poolPayouts := by simpa using equal
  refine decides_present (fun none => ?_) fun signatureStart startRead => ?_
  · rintro ⟨-, other, otherRead, given⟩
    rw [(inWord given).1] at none
    cases none
  obtain ⟨-, ⟨⟩⟩ := Option.ite_none_right_eq_some.mp startRead
  refine decides_present (fun none => by simp [lenRead, none]) fun given givenRead => ?_
  exact decides_decide (by simp [wordsRead, equal, lenRead, givenRead])

/-- Calldata is shorter than its text. -/
theorem calldata_length {input : String} {raw : List Char} {data : List Byte}
    (stripped : strip0x input = some raw) (decoded : hexDecode raw = some data) :
    data.length ≤ input.toList.length := by
  obtain ⟨pairs, pairsRead, rfl⟩ := Option.map_eq_some_iff.mp decoded
  have length := (decodeHexPairs_byteCount pairsRead).2.1
  have longer : raw.length ≤ input.toList.length := by
    unfold strip0x at stripped
    split at stripped
    next rest text =>
      cases stripped
      simp [text]
      omega
    next => cases stripped
  rw [List.length_map]
  omega

theorem hexText_toList (bytes : List Byte) :
    ("0x" ++ hexEncode bytes).toList = '0' :: 'x' :: bytes.flatMap hexByte := by
  simp [hexEncode]

theorem calldata_hexText (data : List Byte) : calldata ("0x" ++ hexEncode data) = some data := by
  simp only [calldata, strip0x, hexText_toList, Option.bind_some, hexDecode_bytes]

/-- The matcher gives the decision, and never panics. -/
theorem Decides.result {keccak256 : List Byte → Hash} {candidate : Candidate} {input : String}
    {holds : Prop} (decided : Decides holds (matchCall keccak256 candidate input)) :
    ∃ result, settlementCallMatches keccak256 candidate input = .ok result ∧
      (result = true ↔ holds) := by
  rcases decided with ⟨ran, matched⟩ | ⟨ran | ran, unmatched⟩
  · exact ⟨true, by rw [settlementCallMatches, ran], by simp [matched]⟩
  · exact ⟨false, by rw [settlementCallMatches, ran], by simpa using unmatched⟩
  · exact ⟨false, by rw [settlementCallMatches, ran], by simpa using unmatched⟩

theorem matchCall_decides {keccak256 : List Byte → Hash} {ecdsa : Ecdsa}
    {policy : PromotionPolicy} {incidentId : String} {artifact : Lib.Json.JsonValue}
    {candidate : Candidate}
    (built : verifyCandidate keccak256 ecdsa policy incidentId artifact = .ok candidate)
    {input : String} (addressable : input.toList.length < 2 ^ 64) :
    ∃ root : Hash, candidate.input.root = hashHex root ∧
      Decides (∃ data, calldata input = some data ∧ decodeSettleIncident keccak256 data =
          some ⟨root.bytes, candidate.input.poolPayouts, candidate.signature⟩)
        (matchCall keccak256 candidate input) := by
  obtain ⟨jsonRows, rows, tree, verified⟩ := verifyCandidate_ok built
  have read := readInput_ok verified.input
  obtain ⟨root, rootText⟩ := read.root
  have whole := (bytes_ok verified.signature).1
  refine ⟨root, rootText, ?_⟩
  unfold matchCall calldata
  refine decides_present (fun none => by simp [none]) fun raw stripped => ?_
  refine decides_present (fun none => by simp [stripped, none]) fun data dataRead => ?_
  have fits : data.length < pointerBound :=
    (calldata_length stripped dataRead).trans_lt addressable
  rw [range_eq fits]
  refine decides_present (fun none => by simp [stripped, dataRead, decodeSettleIncident, none])
    fun head headRead => ?_
  refine decides_ite (fun differ => decides_false ?_) fun same => ?_
  · simp [stripped, dataRead, decodeSettleIncident, headRead, differ]
  · have argsFit : (data.drop 4).length < pointerBound := by
      rw [List.length_drop]
      omega
    refine (matchArguments_decides rootText read.payouts whole argsFit).congr ?_
    simp [stripped, dataRead, decodeSettleIncident, headRead, not_not.mp same]

/-- A candidate that was verified is matched by a call exactly when the contract decodes the
call to the candidate's root, payouts and signature; no calldata makes the matcher panic. -/
theorem settlement_call_matches_iff {keccak256 : List Byte → Hash} {ecdsa : Ecdsa}
    {policy : PromotionPolicy} {incidentId : String} {artifact : Lib.Json.JsonValue}
    {candidate : Candidate}
    (built : verifyCandidate keccak256 ecdsa policy incidentId artifact = .ok candidate)
    (input : String) (addressable : input.toList.length < 2 ^ 64) :
    ∃ root : Hash, candidate.input.root = hashHex root ∧ ∃ result,
      settlementCallMatches keccak256 candidate input = .ok result ∧
      (result = true ↔ ∃ data, calldata input = some data ∧
        decodeSettleIncident keccak256 data =
          some ⟨root.bytes, candidate.input.poolPayouts, candidate.signature⟩) := by
  obtain ⟨root, rootText, decided⟩ := matchCall_decides built addressable
  exact ⟨root, rootText, decided.result⟩

/-! ## One candidate and its call -/

namespace SampleCall

open Lib.Json
open Lib.Keccak256

def module : Address := Address.ofNat 60
def registry : Address := Address.ofNat 61
def policy : PromotionPolicy := ⟨1, registry, module⟩

def root : Hash :=
  Hash.ofNat 0x5aa971730d65bdea8e88ea2872ac93b974d84b1eb16de947aa554f2c7946996f

def digest : Hash :=
  Hash.ofNat 0xeb951bfc6843b04399383eaf8daa9170d3b3a851fe228f3fd1e272e6ddc3a9bd

def signature : List Byte :=
  beBytes 32 0x99c126da20397558f23658764c3a7c583db7ff706e93981cc170e27ca8336201 ++
    beBytes 32 0x1ed0839686595f64bdfbc84a983bbdb2968e340c735d0d7c74918a701afdf348 ++ [28]

def publicKey : List Byte :=
  beBytes 32 0x2a5bbcb0eede528e6abe5f2ec50ad7887eb5677af383a460b05ee23bf892dfe5 ++
    beBytes 32 0x52c93747550eda8404c8b473786c00dfd8fd1ef4bc033f359ccf5b77bd656d21

def halfOrder : Nat := 0x7fffffffffffffffffffffffffffffff5d576e7357a4501ddfe92f46681b20a0

/-- The library on the one signature. -/
def ecdsa : Ecdsa where
  Signature := List Byte
  fromSlice given := if given.length = 64 then some given else none
  isHighS given := halfOrder < wordValue (given.drop 32)
  recover prehash given id :=
    if prehash = digest.bytes ∧ given = signature.take 64 ∧ id = 1 then some publicKey else none

def row : JsonValue := .object
  [("claimId", .string "5"), ("user", .string (addressHex (Address.ofNat 100))),
    ("amounts", .array [.string "900"]), ("scoreSpent", .string "7"),
    ("boostedScore", .string "8"), ("eligibleAmount", .string "1000"),
    ("eligibleBoosterAmount", .string "0"), ("proof", .array [])]

def artifact : JsonValue := .object
  [("schemaVersion", .number (some 2) (some 2)), ("chainId", .number (some 1) (some 1)),
    ("registry", .string (addressHex registry)), ("defiInsurance", .string (addressHex module)),
    ("incidentId", .string "1"), ("root", .string (hashHex root)),
    ("unresolvedClaims", .string "1"), ("poolPayouts", .array [.string "1000"]),
    ("poolAddrs", .array [.string (addressHex (Address.ofNat 200))]),
    ("claimSetHash", .string (hashHex (Hash.ofNat 17))),
    ("teePcrHash", .string (hashHex (Hash.ofNat 18))),
    ("protocolFeeShareBps", .string "1000"), ("rows", .array [row]),
    ("settlementDigest", .string (hashHex digest)),
    ("signature", .string ("0x" ++ hexEncode signature)),
    ("signer", .string "0xf5a5e415061470a8b9137959180901aea72450a4"),
    ("referenceBlock", .string "9")]

/-- The signature before the payouts, neither aligned, and one byte behind. -/
def call : List Byte :=
  [169, 218, 165, 70] ++ root.bytes ++ wordBytes 194 ++ wordBytes 97 ++ [1] ++
    wordBytes 65 ++ signature ++ wordBytes 1 ++ wordBytes 1000 ++ [2]

def isSample (candidate : Candidate) : Bool :=
  candidate.input.root == hashHex root && candidate.input.poolPayouts == [1000] &&
    candidate.signature == signature

def isSampleResult : Verifying Candidate → Bool
  | .ok candidate => isSample candidate
  | .error _ => false

theorem of_isSampleResult {result : Verifying Candidate} (passed : isSampleResult result = true) :
    ∃ candidate, result = .ok candidate ∧ isSample candidate = true := by
  cases result with
  | ok candidate => exact ⟨candidate, rfl, passed⟩
  | error _ => cases passed

theorem built :
    isSampleResult (verifyCandidate keccak256 ecdsa policy "1" artifact) = true := by
  decide +kernel

theorem call_fits : ("0x" ++ hexEncode call).toList.length < 2 ^ 64 := by
  rw [hexText_toList]
  decide +kernel

theorem call_selector :
    selector keccak256 settleIncidentSignature = [169, 218, 165, 70] := by
  decide +kernel

theorem call_arguments :
    decodeArguments (call.drop 4) = some ⟨root.bytes, [1000], signature⟩ := by
  decide +kernel

theorem call_decoded :
    decodeSettleIncident keccak256 call = some ⟨root.bytes, [1000], signature⟩ := by
  have head : slice call 0 4 = some [169, 218, 165, 70] := by decide +kernel
  rw [decodeSettleIncident, head, call_selector, Option.bind_eq_bind, Option.bind_some,
    if_pos rfl, call_arguments]

theorem call_settles {candidate : Candidate}
    (verified : verifyCandidate keccak256 ecdsa policy "1" artifact = .ok candidate)
    (fields : isSample candidate = true) :
    settlementCallMatches keccak256 candidate ("0x" ++ hexEncode call) = .ok true := by
  simp only [isSample, Bool.and_eq_true, beq_iff_eq] at fields
  obtain ⟨⟨rootText, payouts⟩, signed⟩ := fields
  obtain ⟨own, ownText, decided⟩ := matchCall_decides verified call_fits
  have same : own = root := hashHex_injective (ownText.symm.trans rootText)
  rw [same, payouts, signed] at decided
  obtain ⟨result, ran, decides⟩ := decided.result
  rw [ran, decides.mpr ⟨call, calldata_hexText call, call_decoded⟩]

end SampleCall

open SampleCall in
/-- A call that no canonical encoder writes is matched. -/
theorem sampleCall_matched :
    ∃ candidate, verifyCandidate Lib.Keccak256.keccak256 ecdsa policy "1" artifact = .ok candidate ∧
      settlementCallMatches Lib.Keccak256.keccak256 candidate ("0x" ++ hexEncode call) = .ok true := by
  obtain ⟨candidate, verified, fields⟩ := of_isSampleResult built
  simp only [isSample, Bool.and_eq_true, beq_iff_eq] at fields
  obtain ⟨⟨rootText, payouts⟩, signed⟩ := fields
  obtain ⟨own, ownText, result, ran, decided⟩ := settlement_call_matches_iff verified _ call_fits
  have same : own = root := hashHex_injective (ownText.symm.trans rootText)
  rw [same, payouts, signed] at decided
  have matched : result = true := decided.mpr ⟨call, calldata_hexText call, call_decoded⟩
  exact ⟨candidate, verified, by rw [ran, matched]⟩

end Usd8Core.JobApi
