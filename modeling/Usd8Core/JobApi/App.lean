import Usd8Core.JobApi.JobStore
import Usd8Core.Lib.Sha256

/-!
# The job service

Submission and polling as programs over the store.  An invocation keeps nothing between
its requests but what it has read.
-/

set_option autoImplicit false

namespace Usd8Core.JobApi

open Usd8Core.Lib.ByteWords
open Usd8Core.Lib.CheckedCall (maxU64 saturatingAdd)
open Usd8Core.Lib.Json
open Usd8Core.Lib.Interleaving

/-! ## Control objects -/

structure WorkerReservation where
  jobId : String
  launchUntil : Nat
  startedAt : Option Nat
  deriving DecidableEq

structure AdmissionLedger where
  reservations : List WorkerReservation
  starts : List Nat
  observedAt : Nat
  deriving DecidableEq

def AdmissionLedger.empty : AdmissionLedger := ⟨[], [], 0⟩

/-- Zero active workers selects cost-only admission. -/
structure AdmissionPolicy where
  maxActiveWorkers : Nat
  maxStartsPerHour : Nat

def maxControlBytes : Nat := 524288

def maxReservations : Nat := 2048

def maxStoredRequestBytes : Nat := 4096

/-- The JSON texts of the stored records, which are read back as they were written. -/
structure Serde (β : Type) where
  raw : β → List Byte
  workBytes : WorkAttempt → β
  parseWork : β → Option WorkAttempt
  parseWork_workBytes : ∀ state, parseWork (workBytes state) = some state
  ledgerBytes : AdmissionLedger → β
  parseLedger : β → Option AdmissionLedger
  parseLedger_ledgerBytes : ∀ ledger, parseLedger (ledgerBytes ledger) = some ledger
  requestBytes : StoredRequest → β
  parseRequest : β → Option StoredRequest
  parseRequest_requestBytes : ∀ stored, parseRequest (requestBytes stored) = some stored
  parseTerminal : β → Option TerminalEnvelope

theorem Serde.ledgerBytes_injective {β : Type} (serde : Serde β) :
    Function.Injective serde.ledgerBytes := by
  intro first second same
  have parsed := congrArg serde.parseLedger same
  rw [serde.parseLedger_ledgerBytes, serde.parseLedger_ledgerBytes] at parsed
  exact Option.some.inj parsed

theorem Serde.workBytes_injective {β : Type} (serde : Serde β) :
    Function.Injective serde.workBytes := by
  intro first second same
  have parsed := congrArg serde.parseWork same
  rw [serde.parseWork_workBytes, serde.parseWork_workBytes] at parsed
  exact Option.some.inj parsed

structure App (β : Type) where
  registry : String
  defiInsurance : String
  jobSecret : List Byte
  maxResultBytes : Nat
  maxInlineResultBytes : Nat
  resultUrlTtlSeconds : Nat
  jobTtlSeconds : Nat
  admission : AdmissionPolicy
  hasVerifier : Bool
  crypto : Crypto
  serde : Serde β

structure SubmitOutcome where
  accepted : Bool
  jobId : String

structure ResultDownload where
  url : String
  sha256 : String
  bytes : Nat
  expiresInSeconds : Nat

structure PollOutcome where
  jobId : String
  status : String
  apiVerified : Bool
  payload : Option JsonValue
  download : Option ResultDownload

abbrev Prog (β α : Type) := Program (Op β) (Reply β) ServiceError α

section Requests

variable {β : Type}

def clock : Prog β Nat := .request Op.clock .done

def getVersioned (key : Key) (maxBytes : Nat) : Prog β (Option (VersionedObject β)) :=
  .request (Op.getVersioned key maxBytes) Program.ofExcept

def compareExchange (key : Key) (revision : Option Nat) (value : β) : Prog β Bool :=
  .request (Op.compareExchange key revision value) Program.ofExcept

def create (key : Key) (value : β) : Prog β (CreateOutcome β) :=
  .request (Op.create key value) Program.ofExcept

def get (key : Key) (maxBytes : Nat) : Prog β (Option β) :=
  .request (Op.get key maxBytes) Program.ofExcept

def downloadUrl (key : Key) (ttlSeconds : Nat) : Prog β String :=
  .request (Op.downloadUrl key ttlSeconds) Program.ofExcept

def precheck (request : CanonicalRequest) : Prog β Unit :=
  .request (Op.precheck request) Program.ofExcept

/-- An error of the launcher counts as not released. -/
def canReleaseReservation (jobId : String) (launchUntil now : Nat) : Prog β Bool :=
  .request (Op.canReleaseReservation jobId launchUntil now) fun reply =>
    .done (reply.toOption == some true)

def launchBefore (jobId : String) (deadline : Nat) : Prog β Unit :=
  .request (Op.launchBefore jobId deadline) Program.ofExcept

def verify (request : CanonicalRequest) (terminal : TerminalEnvelope) : Prog β Unit :=
  .request (Op.verify request terminal) Program.ofExcept

def noteSealed (stored : StoredRequest) : Prog β Unit :=
  .request (Op.noteSealed stored) .done

/-- A value that has to be there. -/
def orFail {α : Type} (value : Option α) (error : ServiceError) : Prog β α :=
  match value with
  | some present => .done present
  | none => .fail error

end Requests

namespace App

variable {β : Type} [DecidableEq β] (app : App β)

/-! ## Admission -/

/-- Whether the reservation need not be kept.  Errors and unknown inventory keep it. -/
def isReleased (now : Nat) (slot : WorkerReservation) : Prog β Bool :=
  if app.admission.maxActiveWorkers = 0 then
    let retainUntil := max (saturatingAdd (slot.startedAt.getD slot.launchUntil) 3600)
      (saturatingAdd slot.launchUntil 900)
    .done (decide (now > retainUntil))
  else canReleaseReservation slot.jobId slot.launchUntil now

def retainSlots (now : Nat) : List WorkerReservation → Prog β (List WorkerReservation)
  | [] => .done []
  | slot :: later => do
      Program.failIf (validJobId slot.jobId = false) .invalidStoredResult
      let released ← app.isReleased now slot
      let retained ← retainSlots now later
      .done (if released then retained else slot :: retained)

/-- The starts that still count at `now`. -/
def retainedStarts (now : Nat) (starts : List Nat) : List Nat :=
  starts.filter fun started => decide (now < started ∨ now - started ≤ 3600)

def isDenied (policy : AdmissionPolicy) (retained : List WorkerReservation) (starts : List Nat) :
    Prop :=
  (0 < policy.maxActiveWorkers ∧ policy.maxActiveWorkers ≤ retained.length) ∨
    policy.maxStartsPerHour ≤ starts.length ∨ maxReservations ≤ retained.length

instance (policy : AdmissionPolicy) (retained : List WorkerReservation) (starts : List Nat) :
    Decidable (isDenied policy retained starts) := by
  unfold isDenied
  infer_instance

/-- The ledger of a denied call: the cleanup alone. -/
def cleanedLedger (now : Nat) (retained : List WorkerReservation) (starts : List Nat) :
    AdmissionLedger :=
  ⟨retained, starts, now⟩

/-- The ledger of an admitted call: the cleanup, a charge and a slot. -/
def chargedLedger (now : Nat) (retained : List WorkerReservation) (starts : List Nat)
    (jobId : String) (launchUntil : Nat) : AdmissionLedger :=
  ⟨retained ++ [⟨jobId, launchUntil, some now⟩], starts ++ [now], now⟩

/-- The ledger a read found; an absent one is empty. -/
def readLedger (current : Option (VersionedObject β)) : Prog β AdmissionLedger :=
  match current with
  | none => .done AdmissionLedger.empty
  | some object => orFail (app.serde.parseLedger object.bytes) .invalidStoredResult

def reserveLoop (jobId : String) (launchUntil : Nat) : Nat → Prog β Unit
  | 0 => .fail .unavailable
  | attempts + 1 => do
      let current ← getVersioned .admission maxControlBytes
      let ledger ← app.readLedger current
      Program.failIf (ledger.reservations.length > maxReservations ∨ ledger.starts.length > 1024)
        .invalidStoredResult
      let now ← clock
      Program.failIf
        (now = 0 ∨ now < ledger.observedAt ∨ ∃ started ∈ ledger.starts, started > now)
        .unavailable
      match ledger.reservations.find? fun slot => slot.jobId == jobId with
      | some slot =>
          if slot.launchUntil = launchUntil then .done () else .fail .invalidStoredResult
      | none => do
          let retained ← app.retainSlots now ledger.reservations
          let starts := retainedStarts now ledger.starts
          let next := if isDenied app.admission retained starts then
              cleanedLedger now retained starts
            else chargedLedger now retained starts jobId launchUntil
          let committed ← compareExchange .admission (current.map VersionedObject.revision)
            (app.serde.ledgerBytes next)
          if committed then
            if isDenied app.admission retained starts then .fail .admissionLimited else .done ()
          else reserveLoop jobId launchUntil attempts

def reserveWorker (jobId : String) (launchUntil : Nat) : Prog β Unit :=
  app.reserveLoop jobId launchUntil 16

/-! ## Results -/

/-- The worker's result while it is there, the retained one after it has expired. -/
def completionBytes (jobId : String) : Prog β (Option β) := do
  let candidate ← get (.terminal jobId) app.maxResultBytes
  match candidate with
  | some bytes => .done (some bytes)
  | none => get (.completion jobId) app.maxResultBytes

def parseTerminal (bytes : β) (expectedJobId : Option String) :
    Except ServiceError TerminalEnvelope :=
  if (app.serde.raw bytes).length > app.maxResultBytes then .error .invalidStoredResult
  else
    match app.serde.parseTerminal bytes with
    | none => .error .invalidStoredResult
    | some terminal =>
        if terminal.schemaVersion ≠ 1 ∨ (∃ jobId ∈ expectedJobId, terminal.jobId ≠ jobId) ∨
            validJobId terminal.jobId = false ∨ terminal.payload.isObject = false then
          .error .invalidStoredResult
        else .ok terminal

def verifyWith (request : CanonicalRequest) (terminal : TerminalEnvelope) : Prog β Unit := do
  Program.failIf (app.hasVerifier = false) .unavailable
  verify request terminal

def verifyCompletion (stored : StoredRequest) (terminal : TerminalEnvelope) : Prog β Unit :=
  match stored.request with
  | .open _ => .done ()
  | .settlement request => do
      app.verifyWith stored.request terminal
      let found ← Program.ofExcept (settlementLocatorFromTerminal terminal app.registry)
      let locator ← orFail found .invalidStoredResult
      let module ← orFail (normalizeAddress app.defiInsurance) .invalidRequest
      Program.failIf (request.incidentId ≠ locator.incidentId ∨
        request.registry ≠ locator.registry ∨ locator.defiInsurance ≠ module) .invalidStoredResult

/-- Create the object unless it is there with the same bytes. -/
def createSame (key : Key) (value : β) : Prog β Unit := do
  let outcome ← create key value
  match outcome with
  | .created => .done ()
  | .exists existing => Program.failIf (existing ≠ value) .invalidStoredResult

def retainCompletion (stored : StoredRequest) (bytes : β) : Prog β Unit := do
  createSame (.completion stored.jobId) bytes
  createSame (.completionRequest stored.jobId) (app.serde.requestBytes stored)

/-! ## Publication -/

/-- The loop of `seal_settlement_completion`. -/
def sealLoop (workId : String) (stored : StoredRequest) : Nat → Prog β Bool
  | 0 => .fail .unavailable
  | attempts + 1 => do
      let current ← getVersioned (.work workId) maxStoredRequestBytes
      match current with
      | none => .done false
      | some object => do
          let state ← orFail (app.serde.parseWork object.bytes) .invalidStoredResult
          if state.stored ≠ stored then .done false
          else if state.completed then .done true
          else do
            let swapped ← compareExchange (.work workId) (some object.revision)
              (app.serde.workBytes { state with completed := true })
            if swapped then .done true else sealLoop workId stored attempts

/-- A pass is noted, which the service itself does not do. -/
def sealSettlementCompletion (stored : StoredRequest) : Prog β Bool := do
  let workId ← Program.ofExcept (canonicalWorkId app.crypto stored.request app.defiInsurance)
  let isSealed ← app.sealLoop workId stored 16
  if isSealed then do
    noteSealed stored
    .done true
  else .done false

/-- The object already published at the locator has to be a completion of the same work. -/
def checkPublished (stored : StoredRequest) (locator : SettlementLocator) (existing : β) :
    Prog β Unit := do
  let existingTerminal ← Program.ofExcept (app.parseTerminal existing none)
  Program.failIf
    (verifyJobRequestBinding app.crypto existingTerminal.jobId stored.request = false)
    .invalidStoredResult
  app.verifyCompletion stored existingTerminal
  let found ← Program.ofExcept (settlementLocatorFromTerminal existingTerminal app.registry)
  Program.failIf (existingTerminal.status ≠ .completed ∨ found ≠ some locator)
    .invalidStoredResult

/-- The request asks for exactly this settlement. -/
def RequestMatches (request : CanonicalRequest) (locator : SettlementLocator) : Prop :=
  request = .settlement ⟨locator.incidentId, locator.registry⟩

instance (request : CanonicalRequest) (locator : SettlementLocator) :
    Decidable (RequestMatches request locator) := by
  unfold RequestMatches
  infer_instance

def publishAt (stored : StoredRequest) (bytes : β) (terminal : TerminalEnvelope)
    (locator : SettlementLocator) : Prog β Unit := do
  Program.failIf (stored.schemaVersion ≠ storedRequestSchemaVersion ∨
    stored.jobId ≠ terminal.jobId ∨
    verifyJobRequestBinding app.crypto stored.jobId stored.request = false ∨
    ¬ RequestMatches stored.request locator) .invalidStoredResult
  let isSealed ← app.sealSettlementCompletion stored
  if isSealed then do
    let outcome ← create (.settlement locator) bytes
    match outcome with
    | .created => .done ()
    | .exists existing => app.checkPublished stored locator existing
  else .done ()

def publishSettlement (stored : StoredRequest) (bytes : β) (terminal : TerminalEnvelope) :
    Prog β Unit := do
  let found ← Program.ofExcept (settlementLocatorFromTerminal terminal app.registry)
  match found with
  | none => .done ()
  | some locator => app.publishAt stored bytes terminal locator

/-! ## Submission -/

/-- What a submission does about the record it read. -/
inductive Decision where
  | finished (jobId : String)
  | again
  | proceed (generation : Nat) (resume : Option WorkAttempt)

/-- The candidate result: its terminal if it parses, and whether it is invalid. -/
def parseCandidate (jobId : String) (candidate : Except ServiceError (Option β)) :
    Except ServiceError (Option TerminalEnvelope × Bool) :=
  match candidate with
  | .ok (some bytes) =>
      match app.parseTerminal bytes (some jobId) with
      | .ok terminal => .ok (some terminal, false)
      | .error .invalidStoredResult => .ok (none, true)
      | .error error => .error error
  | .ok none => .ok (none, false)
  | .error .invalidStoredResult => .ok (none, true)
  | .error error => .error error

/-- The verdict on a completed candidate of an attempt that is not completed: whether
it is verified, and whether it is invalid. -/
def judgeCandidate (state : WorkAttempt) (terminal : Option TerminalEnvelope)
    (invalidCompletion : Bool) : Prog β (Bool × Bool) :=
  if state.completed then .done (true, invalidCompletion)
  else
    match terminal.filter fun t => t.status == .completed with
    | none => .done (false, invalidCompletion)
    | some candidate => do
        let verdict ← (app.verifyCompletion state.stored candidate).attempt
        match verdict with
        | .ok () => .done (true, invalidCompletion)
        | .error .invalidStoredResult => .done (false, true)
        | .error error => .fail error

/-- Retain, seal and publish the completion of the attempt. -/
def finishWork (workId : String) (state : WorkAttempt) (revision : Nat)
    (terminal : Option TerminalEnvelope) (candidate : Except ServiceError (Option β)) :
    Prog β Decision := do
  let terminal ← orFail terminal .invalidStoredResult
  app.verifyCompletion state.stored terminal
  let candidate ← Program.ofExcept candidate
  let bytes ← orFail candidate .invalidStoredResult
  app.retainCompletion state.stored bytes
  if state.completed then do
    app.publishSettlement state.stored bytes terminal
    .done (.finished state.stored.jobId)
  else do
    let swapped ← compareExchange (.work workId) (some revision)
      (app.serde.workBytes { state with completed := true })
    if swapped then do
      app.publishSettlement state.stored bytes terminal
      .done (.finished state.stored.jobId)
    else .done .again

/-- Take over, resume the launch, or leave the attempt alone. -/
def continueWork (now : Nat) (state : WorkAttempt) (hasTerminal invalidCompletion : Bool) :
    Prog β Decision :=
  if state.admissionDenied ∨ (hasTerminal ∧ ¬ invalidCompletion) ∨
      now > state.stored.expiresAt then do
    Program.failIf (state.generation = maxU64) .unavailable
    .done (.proceed (state.generation + 1) none)
  else if ¬ invalidCompletion ∧ ¬ state.launched ∧ state.launchRetryAt ≤ now ∧
      now < saturatingAdd state.stored.createdAt 120 then
    .done (.proceed 0 (some { state with launchRetryAt := saturatingAdd now 60 }))
  else .done (.finished state.stored.jobId)

/-- The record of the work as a submission found it. -/
def examineWork (workId : String) (request : CanonicalRequest) (now : Nat)
    (current : VersionedObject β) : Prog β Decision := do
  let state ← orFail (app.serde.parseWork current.bytes) .invalidStoredResult
  Program.failIf (state.stored.request ≠ request ∨
    storedRequestIsLive app.crypto state.stored state.stored.createdAt = false ∨
    (state.admissionDenied ∧ (state.launched ∨ state.completed))) .invalidStoredResult
  Program.failIf (validJobId state.stored.jobId = false) .invalidStoredResult
  let candidate ← (app.completionBytes state.stored.jobId).attempt
  let (terminal, invalid) ← Program.ofExcept (app.parseCandidate state.stored.jobId candidate)
  let (verified, invalid) ← app.judgeCandidate state terminal invalid
  if verified then app.finishWork workId state current.revision terminal candidate
  else continueWork now state terminal.isSome invalid

def newAttempt (workId : String) (request : CanonicalRequest) (now generation : Nat) :
    Except ServiceError WorkAttempt := do
  let jobId ← deriveJobId app.crypto app.jobSecret (workId ++ ":" ++ toString generation) request
  pure
    { generation := generation
      stored :=
        { schemaVersion := storedRequestSchemaVersion
          jobId := jobId
          request := request
          createdAt := now
          expiresAt := saturatingAdd now app.jobTtlSeconds }
      launchRetryAt := saturatingAdd now 60
      launched := false
      completed := false
      admissionDenied := false }

/-- Reserve a worker; a denial is recorded with the attempt. -/
def reserveOrDeny (workId : String) (state : WorkAttempt) (revision : Nat) : Prog β Unit := do
  let reserved ← (app.reserveWorker state.stored.jobId
    (saturatingAdd state.stored.createdAt 120)).attempt
  match reserved with
  | .ok () => .done ()
  | .error error =>
      if error = .admissionLimited then do
        let _ ← compareExchange (.work workId) (some revision)
          (app.serde.workBytes { state with admissionDenied := true })
        .fail error
      else .fail error

/-- Launch the worker of the attempt while the lease still stands. -/
def launchAttempt (workId : String) (state : WorkAttempt) (bytes : β) : Prog β Unit := do
  Program.failIf (validJobId state.stored.jobId = false) .invalidRequest
  createSame (.request state.stored.jobId) (app.serde.requestBytes state.stored)
  let owned ← getVersioned (.work workId) maxStoredRequestBytes
  match owned with
  | none => .done ()
  | some owned =>
      if owned.bytes ≠ bytes then .done ()
      else do
        let now ← clock
        if now < saturatingAdd state.stored.createdAt 120 then do
          app.reserveOrDeny workId state owned.revision
          let fresh ← getVersioned (.work workId) maxStoredRequestBytes
          let now ← clock
          if saturatingAdd state.stored.createdAt 120 ≤ now ∨
              fresh.map VersionedObject.bytes ≠ some bytes then .done ()
          else do
            launchBefore state.stored.jobId (saturatingAdd state.stored.createdAt 120)
            let _ ← compareExchange (.work workId) (some owned.revision)
              (app.serde.workBytes { state with launched := true })
            .done ()
        else .done ()

/-- Write the lease of the attempt, then launch under it.  Contention starts over. -/
def proceedWork (workId : String) (request : CanonicalRequest) (now generation : Nat)
    (current : Option (VersionedObject β)) (resume : Option WorkAttempt) :
    Prog β (Option SubmitOutcome) := do
  precheck request
  let state ← (match resume with
    | some state => .done state
    | none => Program.ofExcept (app.newAttempt workId request now generation))
  let bytes := app.serde.workBytes state
  let swapped ← compareExchange (.work workId) (current.map VersionedObject.revision) bytes
  if swapped then do
    app.launchAttempt workId state bytes
    .done (some ⟨true, state.stored.jobId⟩)
  else .done none

def submitLoop (workId : String) (request : CanonicalRequest) : Nat → Prog β SubmitOutcome
  | 0 => .fail .unavailable
  | attempts + 1 => do
      let now ← clock
      Program.failIf (now = 0) .unavailable
      let current ← getVersioned (.work workId) maxStoredRequestBytes
      let decision ← (match current with
        | none => .done (.proceed 0 none)
        | some object => app.examineWork workId request now object)
      match decision with
      | .finished jobId => .done ⟨true, jobId⟩
      | .again => submitLoop workId request attempts
      | .proceed generation resume => do
          let outcome ← app.proceedWork workId request now generation current resume
          match outcome with
          | some outcome => .done outcome
          | none => submitLoop workId request attempts

def submitCanonical (workId : String) (request : CanonicalRequest) : Prog β SubmitOutcome :=
  app.submitLoop workId request 16

/-! ## Polling -/

def terminalOutcome (key : Key) (bytes : β) (terminal : TerminalEnvelope) :
    Prog β PollOutcome := do
  let status := match terminal.status with
    | .completed => "completed"
    | .failed => "failed"
  let raw := app.serde.raw bytes
  if raw.length ≤ app.maxInlineResultBytes then
    .done ⟨terminal.jobId, status, false, some terminal.payload, none⟩
  else do
    let url ← downloadUrl key app.resultUrlTtlSeconds
    .done ⟨terminal.jobId, status, false, none,
      some ⟨url, hexEncode (app.crypto.sha256 raw), raw.length, app.resultUrlTtlSeconds⟩⟩

/-- A job without a result yet. -/
def pendingOutcome (jobId : String) : Prog β PollOutcome := do
  let found ← get (.request jobId) app.maxResultBytes
  let bytes ← orFail found .notFound
  let stored ← orFail (app.serde.parseRequest bytes) .invalidStoredResult
  Program.failIf (stored.schemaVersion ≠ storedRequestSchemaVersion ∨ stored.jobId ≠ jobId ∨
    verifyJobRequestBinding app.crypto jobId stored.request = false ∨
    stored.expiresAt - stored.createdAt ≠ app.jobTtlSeconds) .invalidStoredResult
  let now ← clock
  .done ⟨jobId, if now > stored.expiresAt then "expired" else "pending", false, none, none⟩

/-- The request of a completed job: the retained one, or the one it was launched with. -/
def completedRequest (jobId : String) : Prog β StoredRequest := do
  let retained ← get (.completionRequest jobId) maxStoredRequestBytes
  let bytes ← (match retained with
    | some bytes => .done bytes
    | none => do
        let found ← get (.request jobId) maxStoredRequestBytes
        orFail found .invalidStoredResult)
  let stored ← orFail (app.serde.parseRequest bytes) .invalidStoredResult
  Program.failIf (stored.jobId ≠ jobId ∨
    storedRequestIsLive app.crypto stored stored.createdAt = false) .invalidStoredResult
  .done stored

def poll (jobId : String) : Prog β PollOutcome := do
  Program.failIf (validJobId jobId = false) .invalidRequest
  let candidate ← app.completionBytes jobId
  match candidate with
  | none => app.pendingOutcome jobId
  | some bytes => do
      let terminal ← Program.ofExcept (app.parseTerminal bytes (some jobId))
      if terminal.status = .completed then do
        let stored ← app.completedRequest jobId
        app.verifyCompletion stored terminal
        app.retainCompletion stored bytes
        app.publishSettlement stored bytes terminal
        app.terminalOutcome (.completion jobId) bytes terminal
      else app.terminalOutcome (.terminal jobId) bytes terminal

end App

/-! ## A small service -/

namespace SmallService

inductive Text where
  | work (state : WorkAttempt)
  | ledger (ledger : AdmissionLedger)
  | request (stored : StoredRequest)
  | terminal (jobId : String) (status : TerminalStatus)
  deriving DecidableEq

def registry : String := "0x1111111111111111111111111111111111111111"

def defiInsurance : String := "0x2222222222222222222222222222222222222222"

def root : String := "0x3333333333333333333333333333333333333333333333333333333333333333"

def digest : String := "0x4444444444444444444444444444444444444444444444444444444444444444"

def signature : String := "0x" ++ String.ofList (List.replicate 130 '5')

def requestJson : CanonicalRequest → List Byte
  | .settlement request => utf8 ("\x7b\"kind\":\"settlement\",\"incidentId\":\"" ++
      request.incidentId ++ "\",\"registry\":\"" ++ request.registry ++ "\"\x7d")
  | .open request => utf8 ("\x7b\"kind\":\"open\",\"insuredToken\":\"" ++
      request.insuredToken ++ "\",\"registry\":\"" ++ request.registry ++ "\"\x7d")

def crypto : Crypto := ⟨Lib.Sha256.sha256, Lib.Sha256.hmacSha256, requestJson⟩

def artifact : JsonValue :=
  .object [("schemaVersion", .number (some 2) (some 2)), ("settlementDigest", .string digest),
    ("nitroAttestedDigest", .string digest), ("teePcrHash", .string root),
    ("measuredTeePcrHash", .string root), ("nitroAttestationDocument", .string "0x00"),
    ("chainId", .number (some 1) (some 1)), ("registry", .string registry),
    ("defiInsurance", .string defiInsurance), ("incidentId", .string "7"),
    ("root", .string root)]

def payload : TerminalStatus → JsonValue
  | .completed => .object [("artifact", artifact), ("digest", .string digest),
      ("signature", .string signature), ("signer", .string registry)]
  | .failed => .object [("code", .string "VM_ERROR")]

def serde : Serde Text where
  raw
    | .terminal jobId _ => utf8 jobId
    | _ => []
  workBytes := .work
  parseWork
    | .work state => some state
    | _ => none
  parseWork_workBytes _ := rfl
  ledgerBytes := .ledger
  parseLedger
    | .ledger ledger => some ledger
    | _ => none
  parseLedger_ledgerBytes _ := rfl
  requestBytes := .request
  parseRequest
    | .request stored => some stored
    | _ => none
  parseRequest_requestBytes _ := rfl
  parseTerminal
    | .terminal jobId status => some ⟨1, jobId, status, payload status⟩
    | _ => none

def app : App Text where
  registry := registry
  defiInsurance := defiInsurance
  jobSecret := List.replicate 32 7
  maxResultBytes := 1048576
  maxInlineResultBytes := 65536
  resultUrlTtlSeconds := 300
  jobTtlSeconds := 3600
  admission := ⟨2, 16⟩
  hasVerifier := true
  crypto := crypto
  serde := serde

def request : CanonicalRequest := .settlement ⟨"7", registry⟩

/-- An empty store. -/
def emptyWorld (A : Type) (clock : Nat) : World A Text := ⟨fun _ => [], [], clock⟩

end SmallService

end Usd8Core.JobApi
