import Usd8Core.JobApi.WorkLog

/-!
# What an invocation relies on

Worlds whose log is legal, and what the caller alone can change about itself: whether it
has launched a worker or denied an attempt.
-/

set_option autoImplicit false

namespace Usd8Core.JobApi

open Usd8Core.Lib.EventLog
open Usd8Core.Lib.Interleaving

variable {B β : Type}

/-- A world reached from `start` by legal events, with no ledger from the future. -/
structure App.WorkValid (app : App β) (workId : String) (start w : World B β) : Prop where
  logged : start.Logged w
  legal : Legal (app.Allows workId (start.objects .admission)) w.events
  observed : ∀ writer ledger,
    Event.wrote writer .admission (app.serde.ledgerBytes ledger) ∈ w.events →
      ledger.observedAt ≤ w.clock

/-- The caller has neither launched a worker nor denied an attempt. -/
def App.Idle (app : App β) (workId : String) (caller : B) (w : World B β) : Prop :=
  ¬ LaunchedBy caller w.events ∧ ¬ app.DeniedBy workId caller w.events

section Worlds

variable {app : App β} {workId : String} {start w later : World B β} {caller writer : B}

theorem App.WorkValid.write (valid : app.WorkValid workId start w) (key : Key) (bytes : β)
    (allowed : app.Allows workId (start.objects .admission) w.events (.wrote writer key bytes))
    (timely : ∀ ledger, key = .admission → bytes = app.serde.ledgerBytes ledger →
      ledger.observedAt ≤ w.clock) :
    app.WorkValid workId start (w.write writer key bytes) := by
  refine ⟨valid.logged.write writer key bytes, .snoc _ _ valid.legal allowed, ?_⟩
  intro author ledger member
  rcases List.mem_append.mp member with old | new
  · exact valid.observed author ledger old
  · have same := List.mem_singleton.mp new
    injection same with _ sameKey sameBytes
    exact timely ledger sameKey.symm sameBytes.symm

/-- A write to any other object. -/
theorem App.WorkValid.write_other (valid : app.WorkValid workId start w) {key : Key} (bytes : β)
    (notLedger : key ≠ .admission) (notWork : key ≠ .work workId) :
    app.WorkValid workId start (w.write writer key bytes) := by
  refine valid.write key bytes ?_ fun _ same => absurd same notLedger
  cases key with
  | admission => exact absurd rfl notLedger
  | work id => exact fun same => absurd (same ▸ rfl) notWork
  | _ => trivial

theorem App.WorkValid.write_work (valid : app.WorkValid workId start w) (next : WorkAttempt)
    (follows : app.Follows workId (start.objects .admission) writer w.events
      (app.workAt workId w.events) next) :
    app.WorkValid workId start
      (w.write writer (.work workId) (app.serde.workBytes next)) :=
  valid.write _ _ (fun _ => ⟨next, rfl, follows⟩) fun _ same => by cases same

theorem App.WorkValid.write_ledger (valid : app.WorkValid workId start w) (next : AdmissionLedger)
    (keeps : KeepsSlots (app.ledgerAfter (start.objects .admission) w.events) next)
    (timely : next.observedAt ≤ w.clock) :
    app.WorkValid workId start
      (w.write writer .admission (app.serde.ledgerBytes next)) := by
  refine valid.write _ _ ⟨next, rfl, keeps⟩ ?_
  intro ledger _ same
  rw [← app.serde.ledgerBytes_injective same]
  exact timely

theorem App.WorkValid.record (valid : app.WorkValid workId start w) (event : Event B β)
    (quiet : ∀ key, event.writeTo key = none)
    (allowed : app.Allows workId (start.objects .admission) w.events event) :
    app.WorkValid workId start (w.record event) := by
  refine ⟨valid.logged.record event quiet, .snoc _ _ valid.legal allowed, ?_⟩
  intro author ledger member
  rcases List.mem_append.mp member with old | new
  · exact valid.observed author ledger old
  · have impossible := quiet .admission
    rw [← List.mem_singleton.mp new] at impossible
    simp [Event.writeTo] at impossible

theorem App.WorkValid.drift (valid : app.WorkValid workId start w) (drift : Drift w later) :
    app.WorkValid workId start later := by
  refine ⟨valid.logged.drift drift, ?_, ?_⟩
  · rw [drift.events]
    exact valid.legal
  · intro author ledger member
    rw [drift.events] at member
    exact (valid.observed author ledger member).trans drift.clock

theorem App.WorkValid.ledgerIn (valid : app.WorkValid workId start w) :
    app.ledgerIn w = app.ledgerAfter (start.objects .admission) w.events := by
  rw [App.ledgerIn, App.ledgerAfter, World.current, valid.logged .admission id]
  cases (start.objects .admission ++ writesTo .admission w.events).getLast? <;> rfl

/-- The record in the store is the last one of the log. -/
theorem App.WorkValid.current_work (valid : app.WorkValid workId start w)
    (absent : start.objects (.work workId) = []) :
    (w.current (.work workId)).map VersionedObject.bytes =
      (app.workAt workId w.events).map fun entry => app.serde.workBytes entry.2 := by
  rw [World.current, valid.logged (.work workId) id, absent, List.nil_append,
    writesTo_work valid.legal, List.getLast?_map, App.workAt]
  cases (app.works workId w.events).getLast? <;> rfl

theorem App.WorkValid.work_found (valid : app.WorkValid workId start w)
    (absent : start.objects (.work workId) = []) {object : VersionedObject β}
    (found : w.current (.work workId) = some object) :
    ∃ owner state, app.workAt workId w.events = some (owner, state) ∧
      object.bytes = app.serde.workBytes state := by
  have current := valid.current_work absent
  rw [found] at current
  cases last : app.workAt workId w.events with
  | none =>
      rw [last] at current
      cases current
  | some entry =>
      rw [last] at current
      exact ⟨entry.1, entry.2, rfl, Option.some.inj current⟩

theorem App.WorkValid.work_absent (valid : app.WorkValid workId start w)
    (absent : start.objects (.work workId) = []) (missing : w.current (.work workId) = none) :
    app.workAt workId w.events = none := by
  have current := valid.current_work absent
  rw [missing] at current
  simpa using current.symm

/-- At the revision that was read, the record is the one that was read. -/
theorem works_eq_of_isAt (earlier : app.WorkValid workId start w)
    (now : app.WorkValid workId start later) (grown : Grows w later)
    (isAt : later.IsAt (.work workId) ((w.current (.work workId)).map VersionedObject.revision)) :
    app.works workId later.events = app.works workId w.events := by
  have same := objects_eq_of_isAt id grown isAt
  rw [earlier.logged (.work workId) id, now.logged (.work workId) id] at same
  rw [App.works, App.works, List.append_cancel_left same]

/-! ## Idleness -/

theorem launchedBy_append_iff (log : List (Event B β)) (event : Event B β) :
    LaunchedBy caller (log ++ [event]) ↔
      LaunchedBy caller log ∨ ∃ jobId deadline, event = .launched caller jobId deadline := by
  constructor
  · rintro ⟨jobId, deadline, member⟩
    rcases List.mem_append.mp member with old | new
    · exact .inl ⟨jobId, deadline, old⟩
    · exact .inr ⟨jobId, deadline, (List.mem_singleton.mp new).symm⟩
  · rintro (⟨jobId, deadline, old⟩ | ⟨jobId, deadline, new⟩)
    · exact ⟨jobId, deadline, List.mem_append_left _ old⟩
    · exact ⟨jobId, deadline, by simp [new]⟩

theorem deniedBy_append (log : List (Event B β)) (event : Event B β)
    (idle : ¬ app.DeniedBy workId caller log)
    (harmless : ∀ next owner last, event = .wrote caller (.work workId)
      (app.serde.workBytes next) → app.workAt workId log = some (owner, last) →
        last.admissionDenied = false → next.admissionDenied = false) :
    ¬ app.DeniedBy workId caller (log ++ [event]) := by
  rintro ⟨before, owner, last, next, occurs, stood, admitted, isDenied⟩
  rcases occurs_append_iff.mp occurs with ⟨sameLog, sameEvent⟩ | older
  · subst sameLog
    rw [harmless next owner last sameEvent.symm stood admitted] at isDenied
    cases isDenied
  · exact idle ⟨before, owner, last, next, older, stood, admitted, isDenied⟩

theorem App.Idle.append (idle : app.Idle workId caller w)
    {event : Event B β} (events : later.events = w.events ++ [event])
    (noLaunch : ∀ jobId deadline, event ≠ .launched caller jobId deadline)
    (harmless : ∀ next owner last, event = .wrote caller (.work workId)
      (app.serde.workBytes next) → app.workAt workId w.events = some (owner, last) →
        last.admissionDenied = false → next.admissionDenied = false) :
    app.Idle workId caller later := by
  rw [App.Idle, events]
  refine ⟨?_, deniedBy_append _ _ idle.2 harmless⟩
  rw [launchedBy_append_iff]
  rintro (launched | ⟨jobId, deadline, same⟩)
  · exact idle.1 launched
  · exact noLaunch jobId deadline same

/-- A write to any other object leaves the caller idle. -/
theorem App.Idle.write_other (idle : app.Idle workId caller w) {key : Key} (bytes : β)
    (notWork : key ≠ .work workId) : app.Idle workId caller (w.write writer key bytes) := by
  refine idle.append rfl (by simp) ?_
  intro next owner last same
  injection same with _ sameKey
  exact absurd sameKey notWork

/-- What others do leaves the caller idle. -/
theorem Serves.idle_other {op : Op β} {reply : Reply β op}
    (served : Serves writer w op reply later) (differ : writer ≠ caller)
    (idle : app.Idle workId caller w) : app.Idle workId caller later := by
  have wrote : ∀ key (bytes : β), app.Idle workId caller (w.write writer key bytes) := by
    intro key bytes
    refine idle.append rfl (by simp) ?_
    intro next owner last same
    injection same with sameWriter
    exact absurd sameWriter differ
  cases served with
  | exchanged key revision value isAt => exact wrote key value
  | exchangeLost key revision value isAt error => exact wrote key value
  | created key value absent => exact wrote key value
  | createLost key value absent error => exact wrote key value
  | read key maxBytes => exact idle.append rfl (by simp) (by simp)
  | launched jobId deadline reply =>
      refine idle.append rfl ?_ (by simp)
      intro otherJob otherDeadline same
      injection same with sameLauncher
      exact differ sameLauncher
  | noted stored => exact idle.append rfl (by simp) (by simp)
  | _ => exact idle

end Worlds

end Usd8Core.JobApi
