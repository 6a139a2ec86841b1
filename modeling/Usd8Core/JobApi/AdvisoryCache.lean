import Usd8Core.Lib.CheckedCall
import Usd8Core.Lib.Interleaving

/-!
# The advisory cache

One object of the store has both the last attempt to refresh the advisory and the
last advisory that was published.  A check reads it, reserves the next attempt by a
compare-and-exchange, scans, and publishes over its own reservation.  Its deadline can
cut it off wherever it waits.
-/

set_option autoImplicit false

namespace Usd8Core.JobApi

open Usd8Core.Lib.CheckedCall (maxU64 saturatingAdd)
open Usd8Core.Lib.Interleaving

/-! ## Records -/

inductive Semantic where
  | noDrop
  | qualifying (referenceBlock observationBlock : Nat)
  deriving DecidableEq

inductive CheckError where
  | unavailable
  | active
  | unapproved
  deriving DecidableEq

structure Binding where
  commitment : String
  head : Nat
  finalized : Nat
  maxAge : Nat
  deriving DecidableEq

structure Advisory where
  checkedAt : Nat
  expiresAt : Nat
  configuration : String
  result : Semantic
  deriving DecidableEq

structure Decision where
  fresh : Bool
  advisory : Option Advisory
  deriving DecidableEq

structure AdvisoryRecord where
  attemptAt : Option Nat
  snapshot : Option Advisory
  deriving DecidableEq

def AdvisoryRecord.default : AdvisoryRecord := ⟨none, none⟩

def eligible (result : Semantic) (binding : Binding) : Bool :=
  if binding.head = 0 ∨ binding.finalized = 0 ∨ binding.finalized > binding.head ∨
      binding.maxAge = 0 ∨ binding.commitment.isEmpty then false
  else
    match result with
    | .noDrop => true
    | .qualifying referenceBlock observationBlock =>
        referenceBlock > 0 && referenceBlock < binding.head &&
          binding.head - referenceBlock ≤ binding.maxAge &&
          observationBlock > referenceBlock && observationBlock ≤ binding.finalized

/-- The texts of the records; a record is read back from its own text. -/
structure RecordSerde (β : Type) where
  bytes : AdvisoryRecord → β
  parse : β → Option AdvisoryRecord
  parse_bytes : ∀ record, parse (bytes record) = some record

theorem RecordSerde.bytes_injective {β : Type} (serde : RecordSerde β) {first second : AdvisoryRecord}
    (same : serde.bytes first = serde.bytes second) : first = second := by
  have parsed := congrArg serde.parse same
  rw [serde.parse_bytes, serde.parse_bytes] at parsed
  exact Option.some.inj parsed

/-! ## The log -/

/-- A check by the number of its thread and the clock of its caller. -/
abbrev Checker := Caller Nat

def Checker.now (checker : Checker) : Nat := checker.2

/-- Which of the two exchanges of a check it is. -/
inductive Exchange where
  | reserve
  | publish
  deriving DecidableEq

/-- The write of a check, with the text that it left. -/
structure CacheWrite (β : Type) where
  checker : Checker
  exchange : Exchange
  bytes : β

/-- What the checks did: the bindings they were given, the scans they started with what
came of them in time, and the exchanges that went through. -/
inductive CacheEvent (β : Type) where
  | bound (checker : Checker) (binding : Binding)
  | refreshed (checker : Checker) (result : Option Semantic)
  | wrote (write : CacheWrite β)

abbrev CacheLog (β : Type) := List (CacheEvent β)

structure CachedObject (β : Type) where
  bytes : β
  revision : Nat

section Log

variable {β : Type}

def CacheEvent.asWrite : CacheEvent β → Option (CacheWrite β)
  | .wrote write => some write
  | _ => none

def CacheEvent.checker : CacheEvent β → Checker
  | .bound checker _ => checker
  | .refreshed checker _ => checker
  | .wrote write => write.checker

/-- The revisions of the object. -/
def writesOf (log : CacheLog β) : List (CacheWrite β) := log.filterMap CacheEvent.asWrite

def currentOf (log : CacheLog β) : Option (CachedObject β) :=
  (writesOf log).getLast?.map fun write => ⟨write.bytes, (writesOf log).length⟩

/-- Whether the object is at the revision; no revision stands for its absence. -/
def CacheIsAt (log : CacheLog β) (revision : Option Nat) : Prop :=
  (currentOf log).map CachedObject.revision = revision

end Log

/-! ## Requests -/

inductive CacheOp (β : Type) where
  | getVersioned
  | compareExchange (exchange : Exchange) (revision : Option Nat) (value : β)
  | binding
  | refresh
  | deadlinePassed
  | elapsed

/-- The reply to something that is waited for, unless the deadline comes first. -/
inductive Awaited (α : Type) where
  | expired
  | ready (value : α)

abbrev CacheReply (β : Type) : CacheOp β → Type
  | .getVersioned => Awaited (Option (Option (CachedObject β)))
  | .compareExchange _ _ _ => Awaited (Option Bool)
  | .binding => Awaited (Except CheckError Binding)
  | .refresh => Awaited (Awaited (Except CheckError Semantic))
  | .deadlinePassed => Bool
  | .elapsed => Nat

/-- The semantic result of a scan that came in time. -/
def resultInTime : Awaited (Awaited (Except CheckError Semantic)) → Option Semantic
  | .ready (.ready (.ok result)) => some result
  | _ => none

/-- What a request does and which replies it can get.  The exchange is atomic: it says
that it went through only if it did, and that it was refused only if it was.  Where it
says neither it may have done either. -/
inductive CacheServes {β : Type} (checker : Checker) :
    CacheLog β → (op : CacheOp β) → CacheReply β op → CacheLog β → Prop
  | found (log : CacheLog β) :
      CacheServes checker log .getVersioned (.ready (some (currentOf log))) log
  | notRead (log : CacheLog β) : CacheServes checker log .getVersioned (.ready none) log
  | readExpired (log : CacheLog β) : CacheServes checker log .getVersioned .expired log
  | exchanged (log : CacheLog β) (exchange : Exchange) (revision : Option Nat) (value : β)
      (reply : Awaited (Option Bool)) (isAt : CacheIsAt log revision)
      (notRefused : reply ≠ .ready (some false)) :
      CacheServes checker log (.compareExchange exchange revision value) reply
        (log ++ [.wrote ⟨checker, exchange, value⟩])
  | notExchanged (log : CacheLog β) (exchange : Exchange) (revision : Option Nat) (value : β)
      (reply : Awaited (Option Bool)) (notDone : reply ≠ .ready (some true)) :
      CacheServes checker log (.compareExchange exchange revision value) reply log
  | bound (log : CacheLog β) (binding : Binding) :
      CacheServes checker log .binding (.ready (.ok binding)) (log ++ [.bound checker binding])
  | notBound (log : CacheLog β) (error : CheckError) :
      CacheServes checker log .binding (.ready (.error error)) log
  | bindingExpired (log : CacheLog β) : CacheServes checker log .binding .expired log
  | refreshed (log : CacheLog β) (reply : Awaited (Awaited (Except CheckError Semantic))) :
      CacheServes checker log .refresh reply (log ++ [.refreshed checker (resultInTime reply)])
  | deadlinePassed (log : CacheLog β) (reply : Bool) :
      CacheServes checker log .deadlinePassed reply log
  | elapsed (log : CacheLog β) (reply : Nat) : CacheServes checker log .elapsed reply log

/-! ## A check -/

/-- The deadline cut the inner check off, with what `fallback` was by then. -/
structure CutOff where
  fallback : Option Advisory

/-- What the inner check returns, and what `fallback` is by then. -/
structure InnerResult where
  result : Except CheckError Decision
  fallback : Option Advisory

abbrev CacheProgram (β α : Type) := Program (CacheOp β) (CacheReply β) CutOff α

section Check

variable {β : Type} [DecidableEq β] (serde : RecordSerde β)

def awaited {α : Type} (fallback : Option Advisory) (reply : Awaited α) : CacheProgram β α :=
  match reply with
  | .expired => .fail ⟨fallback⟩
  | .ready value => .done value

def readObject (fallback : Option Advisory) :
    CacheProgram β (Option (Option (CachedObject β))) :=
  .request .getVersioned (awaited fallback)

def exchangeObject (fallback : Option Advisory) (exchange : Exchange) (revision : Option Nat)
    (value : β) : CacheProgram β (Option Bool) :=
  .request (.compareExchange exchange revision value) (awaited fallback)

def sourceBinding (fallback : Option Advisory) : CacheProgram β (Except CheckError Binding) :=
  .request .binding (awaited fallback)

def isDeadlinePassed : CacheProgram β Bool := .request .deadlinePassed .done

/-- The scan against its own timer. -/
def racedRefresh (fallback : Option Advisory) :
    CacheProgram β (Awaited (Except CheckError Semantic)) :=
  .request .refresh (awaited fallback)

/-- `within_deadline(deadline, source.refresh())`, with no result for an error of either. -/
def refreshWithinDeadline (fallback : Option Advisory) : CacheProgram β (Option Semantic) := do
  if ← isDeadlinePassed then return none
  match ← racedRefresh fallback with
  | .expired => return none
  | .ready result =>
      if ← isDeadlinePassed then return none
      return result.toOption

/-- The stored record, or none where its text is not one. -/
def recordOf (object : Option (CachedObject β)) : Option AdvisoryRecord :=
  match object with
  | some object => serde.parse object.bytes
  | none => some .default

def retainedAt (now : Nat) (record : AdvisoryRecord) : Option Advisory :=
  record.snapshot.filter fun snapshot =>
    snapshot.checkedAt ≤ now ∧ now < snapshot.expiresAt ∧
      snapshot.expiresAt = saturatingAdd snapshot.checkedAt 3600

/-- `now.checked_add(3600)` -/
def expiryOf (now : Nat) : Option Nat :=
  if now + 3600 ≤ maxU64 then some (now + 3600) else none

/-- From the result of the scan on: the source is asked again before it is published. -/
def publishResult (now : Nat) (binding : Binding) (prior : Option Advisory)
    (record : AdvisoryRecord) (revision : Nat) (result : Semantic) :
    CacheProgram β InnerResult := do
  match ← sourceBinding prior with
  | .error .unavailable => return ⟨.ok ⟨false, prior⟩, prior⟩
  | .error _ => return ⟨.ok ⟨false, none⟩, prior⟩
  | .ok current =>
      if current.commitment ≠ binding.commitment then return ⟨.ok ⟨false, none⟩, prior⟩
      if ¬ eligible result current then return ⟨.ok ⟨false, prior⟩, prior⟩
      match expiryOf now with
      | none => return ⟨.error .unavailable, prior⟩
      | some expiresAt =>
          let snapshot : Advisory := ⟨now, expiresAt, binding.commitment, result⟩
          let published ← exchangeObject prior .publish (some revision)
            (serde.bytes { record with snapshot := some snapshot })
          if published = some true then return ⟨.ok ⟨true, some snapshot⟩, prior⟩
          return ⟨.error .unavailable, prior⟩

/-- From the reservation on. -/
def refreshReserved (now : Nat) (binding : Binding) (prior : Option Advisory)
    (record : AdvisoryRecord) : CacheProgram β InnerResult := do
  match ← readObject prior with
  | some (some reserved) =>
      if reserved.bytes ≠ serde.bytes record then return ⟨.error .unavailable, prior⟩
      if ← isDeadlinePassed then return ⟨.ok ⟨false, prior⟩, prior⟩
      match ← refreshWithinDeadline prior with
      | none => return ⟨.ok ⟨false, prior⟩, prior⟩
      | some result => publishResult serde now binding prior record reserved.revision result
  | _ => return ⟨.error .unavailable, prior⟩

/-- From the binding on. -/
def checkBound (now : Nat) (object : Option (CachedObject β)) (record : AdvisoryRecord)
    (retained : Option Advisory) (binding : Binding) : CacheProgram β InnerResult := do
  let prior := retained.filter fun snapshot => snapshot.configuration = binding.commitment
  match prior.filter fun snapshot =>
      now - snapshot.checkedAt < 60 ∧ eligible snapshot.result binding with
  | some snapshot => return ⟨.ok ⟨true, some snapshot⟩, prior⟩
  | none =>
      if record.attemptAt.any fun attempt => now < saturatingAdd attempt 60 then
        return ⟨.ok ⟨false, prior⟩, prior⟩
      let record := { record with attemptAt := some now }
      match ← exchangeObject prior .reserve (object.map CachedObject.revision)
          (serde.bytes record) with
      | none => return ⟨.error .unavailable, prior⟩
      | some false => return ⟨.ok ⟨false, prior⟩, prior⟩
      | some true => refreshReserved serde now binding prior record

def checkInner (now : Nat) : CacheProgram β InnerResult := do
  match ← readObject none with
  | none => return ⟨.error .unavailable, none⟩
  | some object =>
      match recordOf serde object with
      | none => return ⟨.error .unavailable, none⟩
      | some record =>
          let retained := retainedAt now record
          match ← sourceBinding retained with
          | .error .unavailable => return ⟨.ok ⟨false, retained⟩, retained⟩
          | .error error => return ⟨.error error, retained⟩
          | .ok binding => checkBound serde now object record retained binding

/-- A decision with the seconds that the check took. -/
structure CheckAnswer where
  decision : Decision
  elapsed : Nat

/-- `within_deadline(deadline, check_inner(..))` with what stands in for it when it is late. -/
def checkWithinDeadline (now : Nat) : CacheProgram β (Except CheckError Decision) := do
  if ← isDeadlinePassed then return .ok ⟨false, none⟩
  match ← (checkInner serde now).attempt with
  | .error cut => return .ok ⟨false, cut.fallback⟩
  | .ok inner =>
      if ← isDeadlinePassed then return .ok ⟨false, inner.fallback⟩
      return inner.result

def check (now : Nat) : CacheProgram β (Except CheckError CheckAnswer) := do
  match ← checkWithinDeadline serde now with
  | .error error => return .error error
  | .ok decision =>
      let elapsed ← (.request .elapsed .done : CacheProgram β Nat)
      let returnedAt := saturatingAdd now elapsed
      let advisory := decision.advisory.filter fun snapshot => returnedAt < snapshot.expiresAt
      let young := advisory.any fun snapshot => returnedAt - snapshot.checkedAt < 60
      return .ok ⟨⟨decision.fresh && young, advisory⟩, elapsed⟩

end Check

end Usd8Core.JobApi
