import Usd8Core.Engine.Rpc
import Usd8Core.JobApi.Protocol
import Usd8Core.Kernel.SettlementTree
import Usd8Core.Kernel.TypedData
import Usd8Core.Lib.AbiDecoding
import Usd8Core.Lib.DecimalText

/-!
# Candidates for publication

`verify_candidate` reads an artifact, rebuilds its tree, totals and digest, and recovers
its signer.  A candidate is consistent with itself; nobody has authorised it yet.
-/

set_option autoImplicit false

namespace Usd8Core.JobApi

open Usd8Core.Lib.AbiDecoding
open Usd8Core.Lib.ByteWords
open Usd8Core.Lib.CheckedCall
open Usd8Core.Lib.DecimalText
open Usd8Core.Lib.Json
open Usd8Core.Kernel
open Usd8Core.Engine (RpcError)

structure PromotionPolicy where
  chainId : Nat
  registry : Address
  defiInsurance : Address

inductive VerificationError where
  | invalid (why : String)
  | rpc (error : RpcError)
  | panicked (reason : Panic)

abbrev Verifying := Except VerificationError

def require (ok : Prop) [Decidable ok] (why : String) : Verifying Unit :=
  revertIf (¬ ok) (.invalid why)

theorem require_ok_iff (ok : Prop) [Decidable ok] (why : String) (result : Unit) :
    require ok why = .ok result ↔ ok := by
  rw [require, revertIf_ok_iff, not_not]

/-! ## Fields of the artifact -/

def text (v : JsonValue) : Verifying String := orRevert v.asString (.invalid "expected string")

/-- `decimal::<u64>` where `limit` is given, `decimal::<BigUint>` where it is not. -/
def decimal (limit : Option Nat) (v : JsonValue) : Verifying Nat := do
  let s ← text v
  let digits := s.toList
  let max := maxUint256Text.toList
  require (digits ≠ [] ∧ digits.all isDigit = true ∧ (s = "0" ∨ digits.head? ≠ some '0') ∧
      (digits.length < max.length ∨ digits.length = max.length ∧ textLe digits max = true))
    "noncanonical uint256"
  revertIf (∃ bound ∈ limit, bound ≤ decimalValue digits) (.invalid "integer overflow")
  pure (decimalValue digits)

/-- `str::len` -/
def byteCount (chars : List Char) : Nat := (chars.map Char.utf8Size).sum

def addressFromText (s : String) : Option Address := do
  let raw ← strip0x s
  let bytes ← (if byteCount raw = 40 then decodeHexPairs raw else none)
  pure (Address.ofNat (beValue bytes))

def address (v : JsonValue) : Verifying Address := do
  let s ← text v
  orRevert (addressFromText s) (.invalid "address")

def bytes (v : JsonValue) (size : Nat) : Verifying (List Byte) := do
  let s ← text v
  let raw ← orRevert (strip0x s) (.invalid "hex prefix")
  require (byteCount raw = size * 2) "hex width"
  let decoded ← orRevert (decodeHexPairs raw) (.invalid "hex encoding")
  pure (decoded.map UInt8.ofNat)

def hash (v : JsonValue) : Verifying String := do
  let decoded ← bytes v 32
  pure ("0x" ++ hexEncode decoded)

def array (v : JsonValue) : Verifying (List JsonValue) := orRevert v.asArray (.invalid "array")

/-! ## Candidates -/

/-- The secp256k1 library: a signature of 64 bytes, whether `s` is high, and the 64 bytes of
the key recovered from a digest. -/
structure Ecdsa where
  Signature : Type
  fromSlice : List Byte → Option Signature
  isHighS : Signature → Bool
  recover : List Byte → Signature → Nat → Option (List Byte)

/-- Cryptographically self-consistent, but not yet an authorized publication. -/
structure Candidate where
  input : SettlementDigestInput
  digest : String
  signer : Address
  signature : List Byte
  feeBps : Nat
  referenceBlock : Nat

section Verify

variable (keccak256 : List Byte → Hash) (ecdsa : Ecdsa)

def readInput (policy : PromotionPolicy) (artifact : JsonValue) :
    Verifying SettlementDigestInput := do
  let incidentId ← decimal none (artifact.index "incidentId")
  let root ← hash (artifact.index "root")
  let unresolvedClaims ← decimal none (artifact.index "unresolvedClaims")
  let payouts ← array (artifact.index "poolPayouts")
  let poolPayouts ← payouts.mapM (decimal none)
  let addrs ← array (artifact.index "poolAddrs")
  let poolAddrs ← addrs.mapM address
  let claimSet ← hash (artifact.index "claimSetHash")
  let teePcrHash ← hash (artifact.index "teePcrHash")
  pure
    { chainId := policy.chainId
      verifyingContract := policy.defiInsurance
      incidentId := incidentId
      root := root
      unresolvedClaims := unresolvedClaims
      poolPayouts := poolPayouts
      poolAddrs := poolAddrs
      claimSet := claimSet
      teePcrHash := teePcrHash }

def readRow (r : JsonValue) : Verifying MerkleRow := do
  let claimId ← decimal none (r.index "claimId")
  let user ← address (r.index "user")
  let amountValues ← array (r.index "amounts")
  let amounts ← amountValues.mapM (decimal none)
  let scoreSpent ← decimal none (r.index "scoreSpent")
  let boostedScore ← decimal none (r.index "boostedScore")
  let eligibleAmount ← decimal none (r.index "eligibleAmount")
  let eligibleBoosterAmount ← decimal none (r.index "eligibleBoosterAmount")
  pure
    { claimId := claimId
      user := user
      amounts := amounts
      scoreSpent := scoreSpent
      boostedScore := boostedScore
      eligibleAmount := eligibleAmount
      eligibleBoosterAmount := eligibleBoosterAmount }

def checkProof (tree : SettlementTree) (r : MerkleRow) (jsonRow : JsonValue) : Verifying Unit :=
  match jsonRow.get "proof" with
  | none => pure ()
  | some proof => do
      let nodes ← array proof
      let actual ← nodes.mapM hash
      let expected ← (tree.proofHex r.claimId).mapError fun _ => VerificationError.invalid "proof"
      require (actual = expected) "proof mismatch"

/-- What a net amount was before the fee. -/
def grossOf (feeBps amount : Nat) : Nat := amount * 10000 / (10000 - feeBps)

/-- The loop over the rows, which adds up their gross amounts pool by pool. -/
def grossTotals (tree : SettlementTree) (feeBps : Nat) :
    List (MerkleRow × JsonValue) → List Nat → Verifying (List Nat)
  | [], totals => pure totals
  | (r, jsonRow) :: later, totals => do
      require (r.amounts.length = totals.length) "row pool width"
      let totals := totals.zipWith (fun total amount => total + grossOf feeBps amount) r.amounts
      checkProof tree r jsonRow
      grossTotals tree feeBps later totals

/-- The signature recovers the declared signer. -/
def recoverSigner (digest : String) (signature : List Byte) : Verifying Address := do
  let v := (signature.getD 64 0).toNat
  require (v = 27 ∨ v = 28) "signature v"
  let sig ← orRevert (ecdsa.fromSlice (signature.take 64)) (.invalid "signature scalars")
  require (ecdsa.isHighS sig = false) "high-s signature"
  let prehash ← bytes (.string digest) 32
  let publicKey ← orRevert (ecdsa.recover prehash sig (v - 27)) (.invalid "signature recovery")
  pure (Address.ofNat (keccak256 publicKey).val)

def verifyCandidate (policy : PromotionPolicy) (incidentId : String) (artifact : JsonValue) :
    Verifying Candidate := do
  require (policy.chainId ≠ 0 ∧ policy.registry ≠ Address.zero ∧
    policy.defiInsurance ≠ Address.zero) "invalid trusted policy"
  require ((artifact.index "schemaVersion").asI64 = some 2 ∧
    (artifact.index "chainId").asU64 = some policy.chainId) "schema/network"
  let registry ← address (artifact.index "registry")
  let bound ← (if registry = policy.registry then do
      let module ← address (artifact.index "defiInsurance")
      pure (decide (module = policy.defiInsurance))
    else pure false)
  require (bound = true) "protocol binding"
  let located ← text (artifact.index "incidentId")
  require (located = incidentId) "incident locator"
  let input ← readInput policy artifact
  require (input.incidentId ≠ 0 ∧ input.root ≠ hashHex Hash.zero) "zero incident/root"
  require (input.poolAddrs.length = input.poolPayouts.length ∧
    input.poolAddrs.all (· ≠ Address.zero) = true ∧ input.poolAddrs.Nodup) "pool shape"
  let feeBps ← decimal (some (uintBound 64)) (artifact.index "protocolFeeShareBps")
  require (feeBps ≤ 2000) "fee cap"
  let jsonRows ← array (artifact.index "rows")
  let rows ← jsonRows.mapM readRow
  require (input.unresolvedClaims = rows.length) "row count"
  let tree ← (SettlementTree.new keccak256 input.incidentId rows).mapError
    fun _ => VerificationError.invalid "Merkle rows"
  require (tree.rootHex = input.root) "Merkle root"
  let totals ← grossTotals tree feeBps (rows.zip jsonRows) (input.poolPayouts.map fun _ => 0)
  require (totals = input.poolPayouts) "gross pool totals"
  let digest ← (settlementDigest keccak256 input).mapError
    fun _ => VerificationError.invalid "typed data"
  let declared ← hash (artifact.index "settlementDigest")
  require (declared = digest) "digest mismatch"
  let signature ← bytes (artifact.index "signature") 65
  let signer ← recoverSigner keccak256 ecdsa digest signature
  let declaredSigner ← address (artifact.index "signer")
  require (declaredSigner = signer) "declared signer mismatch"
  let referenceBlock ← decimal (some (uintBound 64)) (artifact.index "referenceBlock")
  pure
    { input := input
      digest := digest
      signer := signer
      signature := signature
      feeBps := feeBps
      referenceBlock := referenceBlock }

end Verify

/-! ## What was read -/

/-- A digit is an ASCII character. -/
theorem utf8Size_of_hexValue {c : Char} {value : Nat} (digit : hexValue c = some value) :
    c.utf8Size = 1 := by
  apply Char.utf8Size_eq_one_iff.mpr
  unfold hexValue at digit
  have ascii : ∀ last : Char, last.val ≤ 127 → c ≤ last → c.val ≤ 127 :=
    fun last small below => UInt32.le_trans below small
  split at digit
  next isDigit =>
    simp only [Char.isDigit, Bool.and_eq_true, decide_eq_true_eq] at isDigit
    exact ascii '9' (by decide) isDigit.2
  next =>
    split at digit
    next lower => exact ascii 'f' (by decide) lower.2
    next =>
      split at digit
      next upper => exact ascii 'F' (by decide) upper.2
      next => cases digit

theorem hexValue_lt {c : Char} {value : Nat} (digit : hexValue c = some value) : value < 16 := by
  have bounds : ∀ first last : Char, first ≤ c → c ≤ last →
      first.toNat ≤ c.toNat ∧ c.toNat ≤ last.toNat := fun _ _ above below => ⟨above, below⟩
  unfold hexValue at digit
  split at digit
  next isDigit =>
    simp only [Char.isDigit, Bool.and_eq_true, decide_eq_true_eq] at isDigit
    have range := bounds '0' '9' isDigit.1 isDigit.2
    have last : '9'.toNat = 57 := by decide
    cases digit
    omega
  next =>
    split at digit
    next lower =>
      have range := bounds 'a' 'f' lower.1 lower.2
      have last : 'f'.toNat = 102 := by decide
      cases digit
      omega
    next =>
      split at digit
      next upper =>
        have range := bounds 'A' 'F' upper.1 upper.2
        have last : 'F'.toNat = 70 := by decide
        cases digit
        omega
      next => cases digit

/-- Two ASCII characters for each byte. -/
theorem decodeHexPairs_byteCount {raw : List Char} {decoded : List Nat}
    (read : decodeHexPairs raw = some decoded) :
    byteCount raw = 2 * decoded.length ∧ raw.length = 2 * decoded.length ∧
      ∀ byte ∈ decoded, byte < 256 := by
  induction raw using decodeHexPairs.induct generalizing decoded with
  | case1 =>
      cases read
      simp [byteCount]
  | case2 high low rest ih =>
      obtain ⟨highValue, highRead, read⟩ := Option.bind_eq_some_iff.mp read
      obtain ⟨lowValue, lowRead, read⟩ := Option.bind_eq_some_iff.mp read
      obtain ⟨later, laterRead, result⟩ := Option.bind_eq_some_iff.mp read
      cases result
      obtain ⟨count, length, small⟩ := ih laterRead
      have highSmall := hexValue_lt highRead
      have lowSmall := hexValue_lt lowRead
      refine ⟨?_, ?_, ?_⟩
      · have own : byteCount (high :: low :: rest) =
            high.utf8Size + (low.utf8Size + byteCount rest) := by simp [byteCount]
        rw [own, utf8Size_of_hexValue highRead, utf8Size_of_hexValue lowRead, count,
          List.length_cons]
        omega
      · simp only [List.length_cons, length]
        omega
      · intro byte member
        rcases List.mem_cons.mp member with rfl | inLater
        · omega
        · exact small byte inLater
  | case3 c => cases read

theorem byteCount_hexBytes (bytes : List Byte) :
    byteCount (bytes.flatMap hexByte) = 2 * bytes.length := by
  have decoded := decodeHexPairs_flatMap_hexByte bytes
  simpa using (decodeHexPairs_byteCount decoded).1

theorem addressFromText_addressHex (value : Address) :
    addressFromText (addressHex value) = some value := by
  have stripped : strip0x (addressHex value) =
      some ((beBytes 20 value.val).flatMap hexByte) := by
    simp [strip0x, addressHex]
  have spelled : Address.ofNat (beValue ((beBytes 20 value.val).map UInt8.toNat)) = value := by
    apply Address.ext_val
    have fits : value.val < 256 ^ 20 := value.isLt.trans_eq (by norm_num [uintBound])
    rw [beValue_beBytes 20 value.val fits]
    exact Nat.mod_eq_of_lt value.isLt
  simp [addressFromText, stripped, byteCount_hexBytes, decodeHexPairs_flatMap_hexByte, spelled]

theorem bytes_ok {v : JsonValue} {size : Nat} {result : List Byte}
    (read : bytes v size = .ok result) :
    result.length = size ∧ ∃ s raw decoded, v.asString = some s ∧ strip0x s = some raw ∧
      decodeHexPairs raw = some decoded ∧ result = decoded.map UInt8.ofNat := by
  obtain ⟨s, textRead, read⟩ := (bind_ok_iff _ _ _).mp read
  obtain ⟨raw, stripped, read⟩ := (bind_ok_iff _ _ _).mp read
  obtain ⟨_, width, read⟩ := (bind_ok_iff _ _ _).mp read
  obtain ⟨decoded, decodedRead, result⟩ := (bind_ok_iff _ _ _).mp read
  have width := (require_ok_iff _ _ _).mp width
  have decodedRead := (orRevert_ok_iff _ _ _).mp decodedRead
  have count := (decodeHexPairs_byteCount decodedRead).1
  cases (pure_ok_iff _ _).mp result
  refine ⟨?_, s, raw, decoded, (orRevert_ok_iff _ _ _).mp textRead,
    (orRevert_ok_iff _ _ _).mp stripped, decodedRead, rfl⟩
  rw [List.length_map]
  omega

theorem wordValue_lt (bytes : List Byte) : wordValue bytes < 256 ^ bytes.length := by
  induction bytes using List.reverseRecOn with
  | nil => simp [wordValue, beValue]
  | append_singleton rest byte ih =>
      have small := byte.toNat_lt
      rw [wordValue_append_singleton, List.length_append, List.length_singleton, Nat.pow_succ]
      omega

/-- A hash is kept as the text of its bytes. -/
theorem hash_ok {v : JsonValue} {s : String} (read : hash v = .ok s) :
    ∃ digest : Hash, s = hashHex digest := by
  obtain ⟨decoded, decodedRead, result⟩ := (bind_ok_iff _ _ _).mp read
  have whole := (bytes_ok decodedRead).1
  have fits : wordValue decoded < uintBound 256 := by
    rw [wordBound_eq, ← whole]
    exact wordValue_lt decoded
  refine ⟨⟨wordValue decoded, fits⟩, ?_⟩
  rw [← (pure_ok_iff _ _).mp result, hashHex, Hash.bytes, wordBytes_wordValue whole, hexEncode]
  apply String.toList_injective
  simp

theorem maxUint256Text_digits : maxUint256Text.toList.all isDigit = true ∧
    decimalValue maxUint256Text.toList = 2 ^ 256 - 1 ∧ maxUint256Text.toList.length = 78 := by
  decide +kernel

/-- Canonical texts are those of machine words. -/
theorem decimal_ok {limit : Option Nat} {v : JsonValue} {value : Nat}
    (read : decimal limit v = .ok value) :
    value < uintBound 256 ∧ ∀ bound ∈ limit, value < bound := by
  obtain ⟨s, -, read⟩ := (bind_ok_iff _ _ _).mp read
  obtain ⟨_, canonical, read⟩ := (bind_ok_iff _ _ _).mp read
  obtain ⟨_, within, result⟩ := (bind_ok_iff _ _ _).mp read
  obtain ⟨-, digits, -, range⟩ := (require_ok_iff _ _ _).mp canonical
  have within := (revertIf_ok_iff _ _ _).mp within
  obtain ⟨maxDigits, maxValue, maxLength⟩ := maxUint256Text_digits
  have valueEq := (pure_ok_iff _ _).mp result
  constructor
  · rw [← valueEq]
    rcases range with shorter | ⟨same, below⟩
    · rw [maxLength] at shorter
      calc decimalValue s.toList < 10 ^ s.toList.length := decimalValue_lt digits
        _ ≤ 10 ^ 77 := Nat.pow_le_pow_right (by decide) (by omega)
        _ < uintBound 256 := by norm_num [uintBound]
    · have bounded := (textLe_iff digits maxDigits same).mp below
      rw [maxValue] at bounded
      have top : uintBound 256 = 2 ^ 256 := rfl
      omega
  · intro bound member
    rw [← valueEq]
    by_contra above
    exact within ⟨bound, member, Nat.le_of_not_lt above⟩

/-! ## What a candidate is -/

theorem mapM_returns {α β : Type} {read : α → Verifying β} {values : List α} {results : List β}
    (ran : values.mapM read = .ok results) {holds : β → Prop}
    (each : ∀ value result, read value = .ok result → holds result) :
    ∀ result ∈ results, holds result := by
  have pairs := (mapM_ok_iff read values results).mp ran
  intro result member
  obtain ⟨index, inside, rfl⟩ := List.mem_iff_getElem.mp member
  have inValues : index < values.length := by
    rw [pairs.length_eq]
    exact inside
  exact each _ _ (pairs.get inValues inside)

/-- The fields of a digest input that was read from JSON. -/
structure InputRead (policy : PromotionPolicy) (input : SettlementDigestInput) : Prop where
  chainId : input.chainId = policy.chainId
  verifyingContract : input.verifyingContract = policy.defiInsurance
  root : ∃ root : Hash, input.root = hashHex root
  payouts : ∀ payout ∈ input.poolPayouts, payout < uintBound 256

theorem readInput_ok {policy : PromotionPolicy} {artifact : JsonValue}
    {input : SettlementDigestInput} (read : readInput policy artifact = .ok input) :
    InputRead policy input := by
  obtain ⟨incidentId, -, read⟩ := (bind_ok_iff _ _ _).mp read
  obtain ⟨root, rootRead, read⟩ := (bind_ok_iff _ _ _).mp read
  obtain ⟨unresolvedClaims, -, read⟩ := (bind_ok_iff _ _ _).mp read
  obtain ⟨payouts, -, read⟩ := (bind_ok_iff _ _ _).mp read
  obtain ⟨poolPayouts, payoutsRead, read⟩ := (bind_ok_iff _ _ _).mp read
  obtain ⟨addrs, -, read⟩ := (bind_ok_iff _ _ _).mp read
  obtain ⟨poolAddrs, -, read⟩ := (bind_ok_iff _ _ _).mp read
  obtain ⟨claimSet, -, read⟩ := (bind_ok_iff _ _ _).mp read
  obtain ⟨teePcrHash, -, result⟩ := (bind_ok_iff _ _ _).mp read
  cases (pure_ok_iff _ _).mp result
  exact ⟨rfl, rfl, hash_ok rootRead, mapM_returns payoutsRead fun _ _ ran => (decimal_ok ran).1⟩

/-- What `verify_candidate` has checked of a candidate it returns. -/
structure Verified (keccak256 : List Byte → Hash) (policy : PromotionPolicy)
    (artifact : JsonValue) (candidate : Candidate) (jsonRows : List JsonValue)
    (rows : List MerkleRow) (tree : SettlementTree) : Prop where
  input : readInput policy artifact = .ok candidate.input
  poolCount : candidate.input.poolAddrs.length = candidate.input.poolPayouts.length
  poolsDistinct : candidate.input.poolAddrs.Nodup
  feeCap : candidate.feeBps ≤ 2000
  listed : (artifact.index "rows").asArray = some jsonRows
  rowsRead : jsonRows.mapM readRow = .ok rows
  counted : candidate.input.unresolvedClaims = rows.length
  treeBuilt : SettlementTree.new keccak256 candidate.input.incidentId rows = .ok tree
  root : tree.rootHex = candidate.input.root
  totals : grossTotals tree candidate.feeBps (rows.zip jsonRows)
    (candidate.input.poolPayouts.map fun _ => 0) = .ok candidate.input.poolPayouts
  digest : settlementDigest keccak256 candidate.input = .ok candidate.digest
  signature : bytes (artifact.index "signature") 65 = .ok candidate.signature

theorem verifyCandidate_ok {keccak256 : List Byte → Hash} {ecdsa : Ecdsa}
    {policy : PromotionPolicy} {incidentId : String} {artifact : JsonValue} {candidate : Candidate}
    (ran : verifyCandidate keccak256 ecdsa policy incidentId artifact = .ok candidate) :
    ∃ jsonRows rows tree, Verified keccak256 policy artifact candidate jsonRows rows tree := by
  obtain ⟨_, -, ran⟩ := (bind_ok_iff _ _ _).mp ran
  obtain ⟨_, -, ran⟩ := (bind_ok_iff _ _ _).mp ran
  obtain ⟨registry, -, ran⟩ := (bind_ok_iff _ _ _).mp ran
  obtain ⟨bound, -, ran⟩ := (bind_ok_iff _ _ _).mp ran
  obtain ⟨_, -, ran⟩ := (bind_ok_iff _ _ _).mp ran
  obtain ⟨located, -, ran⟩ := (bind_ok_iff _ _ _).mp ran
  obtain ⟨_, -, ran⟩ := (bind_ok_iff _ _ _).mp ran
  obtain ⟨input, inputRead, ran⟩ := (bind_ok_iff _ _ _).mp ran
  obtain ⟨_, -, ran⟩ := (bind_ok_iff _ _ _).mp ran
  obtain ⟨_, pools, ran⟩ := (bind_ok_iff _ _ _).mp ran
  obtain ⟨feeBps, -, ran⟩ := (bind_ok_iff _ _ _).mp ran
  obtain ⟨_, feeCap, ran⟩ := (bind_ok_iff _ _ _).mp ran
  obtain ⟨jsonRows, listed, ran⟩ := (bind_ok_iff _ _ _).mp ran
  obtain ⟨rows, rowsRead, ran⟩ := (bind_ok_iff _ _ _).mp ran
  obtain ⟨_, counted, ran⟩ := (bind_ok_iff _ _ _).mp ran
  obtain ⟨tree, treeBuilt, ran⟩ := (bind_ok_iff _ _ _).mp ran
  obtain ⟨_, root, ran⟩ := (bind_ok_iff _ _ _).mp ran
  obtain ⟨totals, totalsRun, ran⟩ := (bind_ok_iff _ _ _).mp ran
  obtain ⟨_, payouts, ran⟩ := (bind_ok_iff _ _ _).mp ran
  obtain ⟨digest, digestRun, ran⟩ := (bind_ok_iff _ _ _).mp ran
  obtain ⟨declared, -, ran⟩ := (bind_ok_iff _ _ _).mp ran
  obtain ⟨_, -, ran⟩ := (bind_ok_iff _ _ _).mp ran
  obtain ⟨signature, signatureRead, ran⟩ := (bind_ok_iff _ _ _).mp ran
  obtain ⟨signer, -, ran⟩ := (bind_ok_iff _ _ _).mp ran
  obtain ⟨declaredSigner, -, ran⟩ := (bind_ok_iff _ _ _).mp ran
  obtain ⟨_, -, ran⟩ := (bind_ok_iff _ _ _).mp ran
  obtain ⟨referenceBlock, -, result⟩ := (bind_ok_iff _ _ _).mp ran
  cases (pure_ok_iff _ _).mp result
  obtain ⟨poolCount, -, poolsDistinct⟩ := (require_ok_iff _ _ _).mp pools
  rw [(require_ok_iff _ _ _).mp payouts] at totalsRun
  exact ⟨jsonRows, rows, tree, inputRead, poolCount, poolsDistinct,
    (require_ok_iff _ _ _).mp feeCap, (orRevert_ok_iff _ _ _).mp listed, rowsRead,
    (require_ok_iff _ _ _).mp counted, (mapError_ok_iff _ _ _).mp treeBuilt, (require_ok_iff _ _ _).mp root,
    totalsRun, (mapError_ok_iff _ _ _).mp digestRun, signatureRead⟩

end Usd8Core.JobApi
