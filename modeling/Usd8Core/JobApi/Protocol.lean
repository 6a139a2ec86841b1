import Usd8Core.Lib.CheckedCall
import Usd8Core.Lib.Json

/-!
# Requests, jobs and results of the job service

The identities of canonical work, the records kept about it, and what a worker's
result has to look like.  Serialisation and the hash functions belong to libraries.
-/

set_option autoImplicit false

namespace Usd8Core.JobApi

open Usd8Core.Lib.ByteWords
open Usd8Core.Lib.CheckedCall (maxU64 saturatingAdd)
open Usd8Core.Lib.Json

/-! ## Errors -/

inductive ServiceError where
  | invalidRequest
  | notFound
  | settlementNotEligible
  | admissionLimited
  | unavailable
  | requestWriteUnavailable
  | requestReadUnavailable
  | requestReadDenied
  | requestReadDeniedDetail (detail : String)
  | requestReadIdentityDenied
  | requestReadExplicitDenied
  | capabilitiesUnavailable
  | launchUnavailable
  | launchUnavailableDetail (detail : String)
  | invalidStoredResult
  deriving DecidableEq

/-! ## Texts -/

def isLowerHexDigit (c : Char) : Bool := c.isDigit || ('a' ≤ c && c ≤ 'f')

def isHexDigit (c : Char) : Bool := isLowerHexDigit c || ('A' ≤ c && c ≤ 'F')

/-- `normalize_address` and `normalize_registry`. -/
def normalizeAddress (value : String) : Option String :=
  match strip0x value with
  | none => none
  | some hex =>
      if hex.length ≠ 40 ∨ hex.all isHexDigit = false then none
      else if hex.all (· == '0') then none
      else some ("0x" ++ toAsciiLowercase hex)

def maxUint256Text : String :=
  "115792089237316195423570985008687907853269984665640564039457584007913129639935"

def validIncidentId (value : String) : Bool :=
  let digits := value.toList
  !(digits.isEmpty || (digits.length > 1 && digits.head? == some '0') || !digits.all Char.isDigit ||
    digits.length > maxUint256Text.toList.length ||
    (digits.length == maxUint256Text.toList.length && maxUint256Text < value))

def validJobId (jobId : String) : Bool :=
  jobId.toList.length == 64 && jobId.toList.all isLowerHexDigit

/-! ## Requests -/

structure CanonicalSettlementRequest where
  incidentId : String
  registry : String
  deriving DecidableEq

structure CanonicalOpenRequest where
  insuredToken : String
  registry : String
  deriving DecidableEq

inductive CanonicalRequest where
  | settlement (request : CanonicalSettlementRequest)
  | open (request : CanonicalOpenRequest)
  deriving DecidableEq

def storedRequestSchemaVersion : Nat := 3

structure StoredRequest where
  schemaVersion : Nat
  jobId : String
  request : CanonicalRequest
  createdAt : Nat
  expiresAt : Nat
  deriving DecidableEq

/-- One generation of work: its request, its launch lease and how far it got. -/
structure WorkAttempt where
  generation : Nat
  stored : StoredRequest
  launchRetryAt : Nat
  launched : Bool
  completed : Bool
  admissionDenied : Bool
  deriving DecidableEq

/-! ## Identities -/

/-- The hash functions and the JSON text of a request. -/
structure Crypto where
  sha256 : List Byte → List Byte
  hmacSha256 : List Byte → List Byte → List Byte
  requestJson : CanonicalRequest → List Byte

def utf8 (text : String) : List Byte := text.toUTF8.toList

def hexEncode (bytes : List Byte) : String := String.ofList (bytes.flatMap hexByte)

section Identities

variable (crypto : Crypto)

def configuredChainId : Nat := 1

def canonicalWorkId (request : CanonicalRequest) (configuredModule : String) :
    Except ServiceError String :=
  match normalizeAddress configuredModule with
  | none => .error .invalidRequest
  | some module => .ok (hexEncode (crypto.sha256 (utf8 "USD8_CANONICAL_WORK_V1\x00" ++
      beBytes 8 configuredChainId ++ utf8 module ++ crypto.requestJson request)))

def requestCommitment (canonicalRequest : List Byte) : List Byte :=
  (crypto.sha256 (utf8 "USD8_TEE_REQUEST_V1\x00" ++ canonicalRequest)).take 16

def validIdempotencyKey (key : String) : Bool :=
  let chars := key.toList
  !chars.isEmpty && chars.length ≤ 128 &&
    chars.all fun c => c.isAlphanum || "-._:".toList.contains c

def deriveJobId (secret : List Byte) (idempotencyKey : String) (request : CanonicalRequest) :
    Except ServiceError String :=
  if secret.length < 32 ∨ validIdempotencyKey idempotencyKey = false then .error .invalidRequest
  else
    let canonical := crypto.requestJson request
    let mac := crypto.hmacSha256 secret
      (utf8 "USD8_TEE_JOB_V3\x00" ++ utf8 idempotencyKey ++ [0] ++ canonical)
    .ok (hexEncode (mac.take 16) ++ hexEncode (requestCommitment crypto canonical))

/-- `verify_job_request_binding`: the second half of a job id commits to its request. -/
def verifyJobRequestBinding (jobId : String) (request : CanonicalRequest) : Bool :=
  validJobId jobId &&
    jobId.toList.drop 32 ==
      (hexEncode (requestCommitment crypto (crypto.requestJson request))).toList

def storedRequestIsLive (request : StoredRequest) (now : Nat) : Bool :=
  request.schemaVersion == storedRequestSchemaVersion && request.createdAt < request.expiresAt &&
    now ≤ request.expiresAt && validJobId request.jobId &&
    verifyJobRequestBinding crypto request.jobId request.request

end Identities

/-! ## Results -/

inductive TerminalStatus where
  | completed
  | failed
  deriving DecidableEq

structure TerminalEnvelope where
  schemaVersion : Nat
  jobId : String
  status : TerminalStatus
  payload : JsonValue

structure SettlementLocator where
  chainId : Nat
  registry : String
  defiInsurance : String
  incidentId : String
  root : String
  deriving DecidableEq

def SettlementLocator.new (chainId : Nat) (registry defiInsurance incidentId root : String) :
    Option SettlementLocator := do
  if chainId = 0 ∨ validIncidentId incidentId = false then none
  let registry ← normalizeAddress registry
  let defiInsurance ← normalizeAddress defiInsurance
  let rootHex ← strip0x root
  if rootHex.length ≠ 64 ∨ rootHex.all isHexDigit = false ∨ rootHex.all (· == '0') then none
  some
    { chainId := chainId
      registry := registry
      defiInsurance := defiInsurance
      incidentId := incidentId
      root := "0x" ++ toAsciiLowercase rootHex }

/-- `hex::decode_to_slice` into 32 bytes. -/
def decodeHex32 (text : List Char) : Option (List Nat) :=
  if text.length = 64 then decodeHexPairs text else none

def eqIgnoreAsciiCase (a b : String) : Bool :=
  a.toList.map Char.toLower == b.toList.map Char.toLower

/-- `extract_attested_digest` for a settlement; every failure is an invalid result. -/
def extractSettlementDigest (artifact : JsonValue) : Option (List Nat) := do
  if artifact.isObject = false then none
  if (artifact.get "schemaVersion").bind JsonValue.asU64 ≠ some 2 then none
  let digest ← artifact.getString "settlementDigest"
  if (artifact.getString "openDigest").isSome then none
  let nitroAttestedDigest ← artifact.getString "nitroAttestedDigest"
  let teePcrHash ← artifact.getString "teePcrHash"
  let measuredTeePcrHash ← artifact.getString "measuredTeePcrHash"
  if eqIgnoreAsciiCase digest nitroAttestedDigest = false ∨
      eqIgnoreAsciiCase teePcrHash measuredTeePcrHash = false then none
  let document ← (artifact.getString "nitroAttestationDocument").bind strip0x
  if document.isEmpty ∨ document.length % 2 ≠ 0 ∨ document.all isHexDigit = false then none
  (strip0x digest).bind decodeHex32

/-- The checks on a settlement artifact, up to where it is published. -/
def locateArtifact (payload artifact : JsonValue) : Option SettlementLocator := do
  let attestedDigest ← extractSettlementDigest artifact
  let payloadDigest ← ((payload.getString "digest").bind strip0x).bind decodeHex32
  if payloadDigest ≠ attestedDigest then none
  let signature ← (payload.getString "signature").bind strip0x
  if signature.length ≠ 130 ∨ signature.all isHexDigit = false then none
  let signer ← payload.getString "signer"
  let _ ← normalizeAddress signer
  let chainId ← (artifact.get "chainId").bind JsonValue.asU64
  let registry ← artifact.getString "registry"
  let defiInsurance ← artifact.getString "defiInsurance"
  let incidentId ← artifact.getString "incidentId"
  let root ← artifact.getString "root"
  SettlementLocator.new chainId registry defiInsurance incidentId root

def settlementLocatorFromTerminal (terminal : TerminalEnvelope) (configuredRegistry : String) :
    Except ServiceError (Option SettlementLocator) :=
  if terminal.status ≠ .completed then .ok none
  else
    match terminal.payload.get "artifact" with
    | none => .ok none
    | some artifact =>
        if (artifact.get "root").isNone then .ok none
        else
          match locateArtifact terminal.payload artifact with
          | none => .error .invalidStoredResult
          | some locator =>
              match normalizeAddress configuredRegistry with
              | none => .error .invalidRequest
              | some registry =>
                  if locator.registry ≠ registry then .error .invalidStoredResult
                  else .ok (some locator)

end Usd8Core.JobApi
