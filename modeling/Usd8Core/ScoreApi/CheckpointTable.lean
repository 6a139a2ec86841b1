import Usd8Core.Lib.EventLog
import Usd8Core.Lib.CheckedCall
import Usd8Core.Lib.Json

/-!
# The row of an account in the checkpoint table

`acquire` and `save` are conditional updates of one row.  A request that was sent may take
effect late, more than once as far as its condition lets it, or never.  The conditions on
generation, lease and version make the saves a chain.
-/

set_option autoImplicit false

namespace Usd8Core.ScoreApi

open Usd8Core.Lib.CheckedCall
open Usd8Core.Lib.EventLog
open Usd8Core.Lib.Json

/-! ## Payloads -/

/-- A cached snapshot; `content` is what the requests do not look at. -/
structure CachedInsuranceScoreSnapshot (S : Type) where
  snapshotVersion : Nat
  referenceBlock : String
  logRequests : String
  cacheStatus : String
  content : S

structure PersistedCheckpoint (C S : Type) where
  checkpoint : C
  snapshot : Option (CachedInsuranceScoreSnapshot S)
  snapshotEpoch : Option Nat

/-- What `serde_json` writes and reads. -/
structure PayloadSerde (C S : Type) where
  text : PersistedCheckpoint C S → String
  persisted : String → Option (PersistedCheckpoint C S)
  value : String → Option JsonValue
  checkpoint : JsonValue → Option C

/-- Rows of older versions hold the checkpoint alone. -/
def decodeCheckpointPayload {C S : Type} (serde : PayloadSerde C S) (payload : String) :
    Option (PersistedCheckpoint C S) :=
  match serde.persisted payload with
  | some persisted => some persisted
  | none => do
      let value ← serde.value payload
      let checkpoint ← serde.checkpoint ((value.get "checkpoint").getD value)
      pure ⟨checkpoint, none, none⟩

/-! ## Requests -/

/-- The attributes of the row; an absent row has none. -/
structure Row where
  leaseUntil : Option Nat
  retryAfter : Option Nat
  attemptedAt : Option Nat
  snapshotGeneration : Option Nat
  expiresAt : Option Nat
  generation : Option Nat
  payload : Option String
  version : Option Nat
  cursorBlock : Option Nat
  snapshotEpoch : Option Nat
  lastRefreshAt : Option Nat

def Row.absent : Row := ⟨none, none, none, none, none, none, none, none, none, none, none⟩

/-- The values of the update that `acquire` sends. -/
structure AcquireRequest where
  leaseUntil : Nat
  retryAfter : Nat
  now : Nat
  epoch : Nat
  expected : Option Nat
  deriving DecidableEq

/-- The values of the update that `save` sends. -/
structure SaveRequest where
  payload : String
  version : Nat
  cursor : Nat
  epoch : Nat
  generation : Nat
  now : Nat
  expected : Option Nat
  refresh : Option Nat
  deriving DecidableEq

inductive Write where
  | acquire (request : AcquireRequest)
  | save (request : SaveRequest)
  deriving DecidableEq

/-- `attribute_not_exists(name) OR name <= :bound` -/
def atMost (held : Option Nat) (bound : Nat) : Bool := held.all (· ≤ bound)

/-- The condition expression of `acquire`. -/
def Row.admits (row : Row) (request : AcquireRequest) : Prop :=
  atMost row.leaseUntil request.now = true ∧ atMost row.retryAfter request.now = true ∧
    row.version = request.expected

/-- The update expression of `acquire`. -/
def Row.acquire (row : Row) (request : AcquireRequest) : Row :=
  { row with
    leaseUntil := some request.leaseUntil
    retryAfter := some request.retryAfter
    attemptedAt := some request.now
    snapshotGeneration := some request.epoch
    expiresAt := none
    generation := some (row.generation.getD 0 + 1) }

/-- The condition expression of `save`. -/
def Row.accepts (row : Row) (request : SaveRequest) : Prop :=
  row.generation = some request.generation ∧
    (row.leaseUntil.any (request.now < ·)) = true ∧
    row.snapshotGeneration = some request.epoch ∧ row.version = request.expected

/-- The update expression of `save`. -/
def Row.save (row : Row) (request : SaveRequest) : Row :=
  { row with
    payload := some request.payload
    version := some request.version
    cursorBlock := some request.cursor
    snapshotEpoch := some request.epoch
    leaseUntil := some 0
    retryAfter := some 0
    lastRefreshAt := request.refresh <|> row.lastRefreshAt
    expiresAt := none }

instance (row : Row) (request : AcquireRequest) : Decidable (row.admits request) := by
  unfold Row.admits
  infer_instance

instance (row : Row) (request : SaveRequest) : Decidable (row.accepts request) := by
  unfold Row.accepts
  infer_instance

/-! ## What happens to the row -/

/-- What a calculation computed, from which checkpoint. -/
structure Computed (C S : Type) where
  previous : Option C
  snapshot : CachedInsuranceScoreSnapshot S
  checkpoint : C

inductive TableEvent (C S : Type) where
  | computed (result : Computed C S)
  | sent (write : Write)
  /-- The update of `acquire` took effect and made this generation. -/
  | acquired (request : AcquireRequest) (generation : Nat)
  | saved (request : SaveRequest)

abbrev TableLog (C S : Type) := List (TableEvent C S)

section Log

variable {C S : Type}

def Row.after (row : Row) : TableEvent C S → Row
  | .acquired request _ => row.acquire request
  | .saved request => row.save request
  | _ => row

def rowOf (log : TableLog C S) : Row := log.foldl Row.after .absent

def TableEvent.asSave : TableEvent C S → Option SaveRequest
  | .saved request => some request
  | _ => none

def savesOf (log : TableLog C S) : List SaveRequest := log.filterMap TableEvent.asSave

/-- The checkpoint that a payload stores. -/
def storedCheckpoint (serde : PayloadSerde C S) (payload : String) : Option C :=
  (decodeCheckpointPayload serde payload).map PersistedCheckpoint.checkpoint

/-- What is saved was computed, from nothing or from what a save of the expected version
stored. -/
structure Justified (serde : PayloadSerde C S) (log : TableLog C S) (request : SaveRequest)
    (result : Computed C S) : Prop where
  computed : .computed result ∈ log
  payload : request.payload =
    serde.text ⟨result.checkpoint, some result.snapshot, some request.epoch⟩
  version : request.version = request.expected.getD 0 + 1
  previous : result.previous = none ∨ ∃ earlier, .saved earlier ∈ log ∧
    request.expected = some earlier.version ∧
    storedCheckpoint serde earlier.payload = result.previous

/-- What an event needs of the log before it. -/
inductive Allows (serde : PayloadSerde C S) (log : TableLog C S) : TableEvent C S → Prop
  | computed (result : Computed C S) : Allows serde log (.computed result)
  | sentAcquire (request : AcquireRequest) : Allows serde log (.sent (.acquire request))
  | sentSave (request : SaveRequest) (result : Computed C S)
      (justified : Justified serde log request result) : Allows serde log (.sent (.save request))
  | acquired (request : AcquireRequest) (sent : .sent (.acquire request) ∈ log)
      (admits : (rowOf log).admits request) :
      Allows serde log (.acquired request ((rowOf log).generation.getD 0 + 1))
  | saved (request : SaveRequest) (sent : .sent (.save request) ∈ log)
      (accepts : (rowOf log).accepts request) : Allows serde log (.saved request)

abbrev TableLegal (serde : PayloadSerde C S) : TableLog C S → Prop := Legal (Allows serde)

end Log

/-! ## The row and the saves -/

section Row

variable {C S : Type} {serde : PayloadSerde C S} {log later : TableLog C S}

@[simp] theorem rowOf_snoc (log : TableLog C S) (event : TableEvent C S) :
    rowOf (log ++ [event]) = (rowOf log).after event := by
  simp [rowOf]

@[simp] theorem savesOf_append (log more : TableLog C S) :
    savesOf (log ++ more) = savesOf log ++ savesOf more := by
  simp [savesOf]

@[simp] theorem savesOf_computed (result : Computed C S) :
    savesOf ([.computed result] : TableLog C S) = [] := rfl

@[simp] theorem savesOf_sent (write : Write) : savesOf ([.sent write] : TableLog C S) = [] := rfl

@[simp] theorem savesOf_acquired (request : AcquireRequest) (generation : Nat) :
    savesOf ([.acquired request generation] : TableLog C S) = [] := rfl

@[simp] theorem savesOf_saved (request : SaveRequest) :
    savesOf ([.saved request] : TableLog C S) = [request] := rfl

theorem mem_savesOf {request : SaveRequest} : request ∈ savesOf log ↔ .saved request ∈ log := by
  simp only [savesOf, List.mem_filterMap]
  constructor
  · rintro ⟨event, member, isSave⟩
    cases event <;> simp_all [TableEvent.asSave]
  · exact fun member => ⟨_, member, rfl⟩

/-- The row holds what the last save wrote. -/
theorem rowOf_lastSave (log : TableLog C S) :
    (rowOf log).version = (savesOf log).getLast?.map SaveRequest.version ∧
      (rowOf log).payload = (savesOf log).getLast?.map SaveRequest.payload := by
  induction log using List.reverseRecOn with
  | nil => exact ⟨rfl, rfl⟩
  | append_singleton log event ih =>
      cases event with
      | saved request => simp [Row.after, Row.save]
      | computed result => simpa [Row.after] using ih
      | sent write => simpa [Row.after] using ih
      | acquired request generation => simpa [Row.after, Row.acquire] using ih

/-- Nothing that justifies a request is ever taken back. -/
theorem Justified.mono {request : SaveRequest} {result : Computed C S}
    (justified : Justified serde log request result) (grown : log <+: later) :
    Justified serde later request result where
  computed := grown.subset justified.computed
  payload := justified.payload
  version := justified.version
  previous := by
    rcases justified.previous with cold | ⟨earlier, member, expected, stored⟩
    · exact .inl cold
    · exact .inr ⟨earlier, grown.subset member, expected, stored⟩

/-- What was saved had been sent, and what had been sent was justified. -/
theorem TableLegal.justified (legal : TableLegal serde log) {request : SaveRequest}
    (sent : .sent (.save request) ∈ log) : ∃ result, Justified serde log request result := by
  obtain ⟨before, occurs⟩ := exists_occurs sent
  cases legal.allowed occurs with
  | sentSave _ result justified => exact ⟨result, justified.mono occurs.before_isPrefix⟩

theorem lastVersion_of_numbered {saves : List SaveRequest}
    (numbered : saves.map SaveRequest.version = List.range' 1 saves.length) :
    (saves.getLast?.map SaveRequest.version).getD 0 = saves.length := by
  rw [← List.getLast?_map, numbered, List.getLast?_range']
  split
  · simp [*]
  · simp only [Option.getD_some]
    omega

/-- The saves are numbered from one on. -/
theorem TableLegal.numbered (legal : TableLegal serde log) :
    (savesOf log).map SaveRequest.version = List.range' 1 (savesOf log).length := by
  induction legal with
  | nil => rfl
  | snoc log event legal allowed ih =>
      cases allowed with
      | computed | sentAcquire | sentSave | acquired => simpa using ih
      | saved request sent accepts =>
          obtain ⟨result, justified⟩ := TableLegal.justified legal sent
          have expected := accepts.2.2.2
          rw [(rowOf_lastSave log).1] at expected
          have version : request.version = (savesOf log).length + 1 := by
            rw [justified.version, ← expected, lastVersion_of_numbered ih]
          rw [savesOf_append, savesOf_saved, List.map_append, ih, List.length_append,
            List.length_singleton, List.range'_1_concat, Nat.add_comm 1, ← version]
          rfl

/-- The version tells the saves apart. -/
theorem TableLegal.save_eq (legal : TableLegal serde log) {first second : SaveRequest}
    (isFirst : first ∈ savesOf log) (isSecond : second ∈ savesOf log)
    (same : first.version = second.version) : first = second := by
  have distinct : ((savesOf log).map SaveRequest.version).Nodup := by
    rw [legal.numbered]
    exact List.nodup_range'
  exact List.inj_on_of_nodup_map distinct isFirst isSecond same

/-! ## Leases -/

/-- Generations only go up, and a lease that runs has not been saved under. -/
structure Leased (log : TableLog C S) : Prop where
  acquired : ∀ request generation, .acquired request generation ∈ log →
    generation ≤ (rowOf log).generation.getD 0
  saved : ∀ request ∈ savesOf log, request.generation ≤ (rowOf log).generation.getD 0
  unsaved : ∀ lease, (rowOf log).leaseUntil = some lease → 0 < lease →
    ∀ request ∈ savesOf log, request.generation < (rowOf log).generation.getD 0

theorem TableLegal.leased (legal : TableLegal serde log) : Leased log := by
  induction legal with
  | nil => exact ⟨by simp, by simp [savesOf], by simp [savesOf]⟩
  | snoc log event legal allowed ih =>
      cases allowed with
      | computed | sentAcquire | sentSave =>
          constructor
          · simpa [Row.after] using ih.acquired
          · simpa [Row.after] using ih.saved
          · simpa [Row.after] using ih.unsaved
      | acquired request sent admits =>
          constructor
          · intro other generation member
            simp only [List.mem_append, List.mem_singleton, TableEvent.acquired.injEq] at member
            simp only [rowOf_snoc, Row.after, Row.acquire, Option.getD_some]
            rcases member with before | ⟨-, rfl⟩
            · exact (ih.acquired other generation before).trans (Nat.le_succ _)
            · exact Nat.le_refl _
          · intro other member
            simp only [savesOf_append, savesOf_acquired, List.append_nil] at member
            simp only [rowOf_snoc, Row.after, Row.acquire, Option.getD_some]
            exact (ih.saved other member).trans (Nat.le_succ _)
          · intro lease _ _ other member
            simp only [savesOf_append, savesOf_acquired, List.append_nil] at member
            simp only [rowOf_snoc, Row.after, Row.acquire, Option.getD_some]
            exact Nat.lt_succ_of_le (ih.saved other member)
      | saved request sent accepts =>
          constructor
          · simpa [Row.after, Row.save] using ih.acquired
          · intro other member
            simp only [savesOf_append, savesOf_saved, List.mem_append, List.mem_singleton] at member
            simp only [rowOf_snoc, Row.after, Row.save]
            rcases member with before | rfl
            · exact ih.saved other before
            · simp [accepts.1]
          · intro lease isLease positive
            simp only [rowOf_snoc, Row.after, Row.save, Option.some.injEq] at isLease
            omega

/-! ## Each save -/

/-- A save goes one version on, stores what was computed from the checkpoint that the version
before it stored or from nothing, and is the first of its generation, which is the newest. -/
structure Chained (serde : PayloadSerde C S) (before : TableLog C S) (request : SaveRequest) :
    Prop where
  version : request.version = ((savesOf before).getLast?.map SaveRequest.version).getD 0 + 1
  computed : ∃ result : Computed C S, .computed result ∈ before ∧
    request.payload = serde.text ⟨result.checkpoint, some result.snapshot, some request.epoch⟩ ∧
    (result.previous = none ∨ ∃ last, (savesOf before).getLast? = some last ∧
      storedCheckpoint serde last.payload = result.previous)
  first : ∀ earlier ∈ savesOf before, earlier.generation ≠ request.generation
  newest : ∀ acquire generation, .acquired acquire generation ∈ before →
    generation ≤ request.generation

theorem TableLegal.chained (legal : TableLegal serde log) {before : TableLog C S}
    {request : SaveRequest} (occurs : Occurs log before (.saved request)) :
    Chained serde before request := by
  have legalBefore : TableLegal serde before := legal.of_isPrefix occurs.before_isPrefix
  have leased := legalBefore.leased
  cases legal.allowed occurs with
  | saved _ sent accepts =>
      obtain ⟨isGeneration, runs, -, isVersion⟩ := accepts
      obtain ⟨result, justified⟩ := TableLegal.justified legalBefore sent
      obtain ⟨lease, isLease, later⟩ := (Option.any_eq_true _ _).mp runs
      have generation : (rowOf before).generation.getD 0 = request.generation := by
        simp [isGeneration]
      have expected := isVersion.symm.trans (rowOf_lastSave before).1
      constructor
      · rw [justified.version, expected]
      · refine ⟨result, justified.computed, justified.payload, ?_⟩
        rcases justified.previous with cold | ⟨earlier, member, isExpected, stored⟩
        · exact .inl cold
        · right
          rw [isExpected] at expected
          obtain ⟨last, isLast, same⟩ := Option.map_eq_some_iff.mp expected.symm
          have isEarlier : last = earlier := legalBefore.save_eq (List.mem_of_getLast? isLast)
            (mem_savesOf.mpr member) same
          exact ⟨last, isLast, isEarlier ▸ stored⟩
      · intro earlier member same
        have below := leased.unsaved lease isLease
          (Nat.zero_lt_of_lt (of_decide_eq_true later)) earlier member
        omega
      · intro acquire newer member
        exact generation ▸ leased.acquired acquire newer member

end Row

end Usd8Core.ScoreApi
