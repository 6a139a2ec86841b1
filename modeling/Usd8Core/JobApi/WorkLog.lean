import Usd8Core.JobApi.Reserving
import Usd8Core.Lib.EventLog

/-!
# The log of one work

What the events of all invocations of one work require of the log before them: how a
revision of the work record follows from the last one, what lets a worker be launched
and what lets an attempt be recorded as denied.
-/

set_option autoImplicit false

namespace Usd8Core.JobApi

open Usd8Core.Lib.CheckedCall (saturatingAdd)
open Usd8Core.Lib.EventLog

variable {B β : Type}

/-! ## Objects as the log has them -/

def Event.writeTo (key : Key) : Event B β → Option (Revision B β)
  | .wrote writer written bytes => if written = key then some ⟨writer, bytes⟩ else none
  | _ => none

def writesTo (key : Key) (log : List (Event B β)) : List (Revision B β) :=
  log.filterMap (Event.writeTo key)

/-- Objects are what they were at the start and what was written since. -/
def World.Logged (start w : World B β) : Prop :=
  ∀ key, ¬ key.Expires → w.objects key = start.objects key ++ writesTo key w.events

section Objects

variable {start w later : World B β}

theorem writesTo_append (key : Key) (log more : List (Event B β)) :
    writesTo key (log ++ more) = writesTo key log ++ writesTo key more :=
  List.filterMap_append

theorem writesTo_mono (key : Key) {log more : List (Event B β)} (past : log <+: more) :
    writesTo key log <+: writesTo key more :=
  past.filterMap _

theorem World.Logged.write (logged : start.Logged w) (agent : B) (key : Key) (bytes : β) :
    start.Logged (w.write agent key bytes) := by
  intro other kept
  rw [World.write, writesTo_append, ← List.append_assoc, ← logged other kept]
  by_cases same : other = key
  · subst same
    simp [writesTo, Event.writeTo]
  · simp [writesTo, Event.writeTo, Ne.symm same, same]

theorem World.Logged.record (logged : start.Logged w) (event : Event B β)
    (quiet : ∀ key, event.writeTo key = none) : start.Logged (w.record event) := by
  intro key kept
  rw [World.record, writesTo_append, ← List.append_assoc, ← logged key kept]
  simp [writesTo, quiet key]

theorem World.Logged.drift (logged : start.Logged w) (drift : Drift w later) :
    start.Logged later := by
  intro key kept
  rw [drift.objects key kept, drift.events]
  exact logged key kept

end Objects

/-! ## The work record and the ledger in the log -/

section Records

variable (app : App β) (workId : String) (base : List (Revision B β))

/-- The revisions of the work record with their writers. -/
def App.works (log : List (Event B β)) : List (B × WorkAttempt) :=
  (writesTo (.work workId) log).filterMap fun revision =>
    (app.serde.parseWork revision.bytes).map fun state => (revision.writer, state)

def App.workAt (log : List (Event B β)) : Option (B × WorkAttempt) :=
  (app.works workId log).getLast?

/-- The ledger after the log, from the revisions there were at the start. -/
def App.ledgerAfter (log : List (Event B β)) : AdmissionLedger :=
  ((base ++ writesTo .admission log).getLast?.bind fun revision =>
    app.serde.parseLedger revision.bytes).getD AdmissionLedger.empty

/-- Until when the worker of a request may be launched. -/
def StoredRequest.launchUntil (stored : StoredRequest) : Nat := saturatingAdd stored.createdAt 120

/-! ## What events require -/

/-- A slot that goes has been held for 900 seconds after its launch deadline. -/
structure KeepsSlots (before after : AdmissionLedger) : Prop where
  later : before.observedAt ≤ after.observedAt
  kept : ∀ slot ∈ before.reservations,
    slot ∈ after.reservations ∨ slot.launchUntil + 900 < after.observedAt

/-- A failure reported for the job was read. -/
def App.FailureSeen (jobId : String) (log : List (Event B β)) : Prop :=
  ∃ key bytes terminal, (key = .terminal jobId ∨ key = .completion jobId) ∧
    Event.read key (some bytes) ∈ log ∧
    app.parseTerminal bytes (some jobId) = .ok terminal ∧ terminal.status = .failed

/-- Why an attempt may be replaced by one created later. -/
def App.Replaceable (log : List (Event B β)) (replaced next : WorkAttempt) : Prop :=
  replaced.admissionDenied = true ∨ app.FailureSeen replaced.stored.jobId log ∨
    replaced.stored.expiresAt < next.stored.createdAt

/-- Since the record stood as it stands, the ledger had no slot of the job although its
time was not over. -/
def App.DenialRight (stored : StoredRequest) (log : List (Event B β)) : Prop :=
  ∃ moment, moment <+: log ∧ app.works workId moment = app.works workId log ∧
    (app.ledgerAfter base moment).observedAt ≤ stored.launchUntil + 900 ∧
    ∀ slot ∈ (app.ledgerAfter base moment).reservations, slot.jobId ≠ stored.jobId

def LaunchedBy (launcher : B) (log : List (Event B β)) : Prop :=
  ∃ jobId deadline, Event.launched launcher jobId deadline ∈ log

/-- The writer turned an attempt into a denied one. -/
def App.DeniedBy (writer : B) (log : List (Event B β)) : Prop :=
  ∃ before owner denied next,
    Occurs log before (.wrote writer (.work workId) (app.serde.workBytes next)) ∧
    app.workAt workId before = some (owner, denied) ∧ denied.admissionDenied = false ∧
    next.admissionDenied = true

/-- How the record may go on. -/
inductive App.Follows (writer : B) (log : List (Event B β)) :
    Option (B × WorkAttempt) → WorkAttempt → Prop
  | opened (next : WorkAttempt) (admitted : next.admissionDenied = false) :
      Follows writer log none next
  | replaced (owner : B) (last next : WorkAttempt) (admitted : next.admissionDenied = false)
      (generation : next.generation = last.generation + 1)
      (why : app.Replaceable log last next) : Follows writer log (some (owner, last)) next
  | resumed (owner : B) (last : WorkAttempt) (retryAt : Nat) (later : last.launchRetryAt < retryAt) :
      Follows writer log (some (owner, last)) { last with launchRetryAt := retryAt }
  | completed (owner : B) (last : WorkAttempt) (unfinished : last.completed = false) :
      Follows writer log (some (owner, last)) { last with completed := true }
  | launched (owner : B) (last : WorkAttempt) (unlaunched : last.launched = false) :
      Follows writer log (some (owner, last)) { last with launched := true }
  | denied (last : WorkAttempt) (admitted : last.admissionDenied = false)
      (right : app.DenialRight workId base last.stored log) (idle : ¬ LaunchedBy writer log) :
      Follows writer log (some (writer, last)) { last with admissionDenied := true }

/-- A launch under the launcher's own lease, with the slot of the job in the ledger. -/
def App.LaunchRight (launcher : B) (jobId : String) (log : List (Event B β)) : Prop :=
  ¬ app.DeniedBy workId launcher log ∧
    ∃ moment state, moment <+: log ∧ app.workAt workId moment = some (launcher, state) ∧
      state.stored.jobId = jobId ∧ state.admissionDenied = false ∧
      ∃ slot ∈ (app.ledgerAfter base moment).reservations,
        slot.jobId = jobId ∧ slot.launchUntil = state.stored.launchUntil

def App.Allows (log : List (Event B β)) : Event B β → Prop
  | .wrote _ .admission bytes => ∃ next, bytes = app.serde.ledgerBytes next ∧
      KeepsSlots (app.ledgerAfter base log) next
  | .wrote writer (.work id) bytes => id = workId → ∃ next, bytes = app.serde.workBytes next ∧
      app.Follows workId base writer log (app.workAt workId log) next
  | .launched launcher jobId _ => app.LaunchRight workId base launcher jobId log
  | _ => True

end Records

section Steps

variable {app : App β} {workId : String} {base : List (Revision B β)}
  {log later : List (Event B β)} {event : Event B β}

theorem works_mono (past : log <+: later) : app.works workId log <+: app.works workId later :=
  (writesTo_mono _ past).filterMap _

theorem works_write (writer : B) (next : WorkAttempt) :
    app.works workId (log ++ [.wrote writer (.work workId) (app.serde.workBytes next)]) =
      app.works workId log ++ [(writer, next)] := by
  simp [App.works, writesTo, Event.writeTo, app.serde.parseWork_workBytes]

theorem works_quiet (quiet : event.writeTo (.work workId) = none) :
    app.works workId (log ++ [event]) = app.works workId log := by
  simp [App.works, writesTo, quiet]

theorem ledgerAfter_write (writer : B) (next : AdmissionLedger) :
    app.ledgerAfter base (log ++ [.wrote writer .admission (app.serde.ledgerBytes next)]) =
      next := by
  simp [App.ledgerAfter, writesTo, Event.writeTo,
    app.serde.parseLedger_ledgerBytes, ← List.append_assoc]

theorem ledgerAfter_quiet (quiet : event.writeTo .admission = none) :
    app.ledgerAfter base (log ++ [event]) = app.ledgerAfter base log := by
  simp [App.ledgerAfter, writesTo, quiet]

/-- An event leaves the record as it is, or writes what may follow. -/
theorem App.Allows.works_cases (allowed : app.Allows workId base log event) :
    event.writeTo (.work workId) = none ∨
      ∃ writer next, event = .wrote writer (.work workId) (app.serde.workBytes next) ∧
        app.Follows workId base writer log (app.workAt workId log) next := by
  cases written : event.writeTo (.work workId) with
  | none => exact .inl rfl
  | some revision =>
      cases event with
      | wrote writer key bytes =>
          simp only [Event.writeTo] at written
          split at written
          · rename_i same
            subst same
            obtain ⟨next, isNext, follows⟩ := allowed rfl
            exact .inr ⟨writer, next, by rw [isNext], follows⟩
          · cases written
      | _ => cases written

/-- An event leaves the ledger as it is, or writes one that keeps its slots. -/
theorem App.Allows.ledger_cases (allowed : app.Allows workId base log event) :
    event.writeTo .admission = none ∨
      ∃ writer next, event = .wrote writer .admission (app.serde.ledgerBytes next) ∧
        KeepsSlots (app.ledgerAfter base log) next := by
  cases written : event.writeTo .admission with
  | none => exact .inl rfl
  | some revision =>
      cases event with
      | wrote writer key bytes =>
          simp only [Event.writeTo] at written
          split at written
          · rename_i same
            subst same
            obtain ⟨next, isNext, keeps⟩ := allowed
            exact .inr ⟨writer, next, by rw [isNext], keeps⟩
          · cases written
      | _ => cases written

end Steps

/-! ## What a whole log obeys -/

def WorkAttempt.flags (state : WorkAttempt) : Nat :=
  state.launched.toNat + state.completed.toNat + state.admissionDenied.toNat

/-- A later revision: of a later generation, or of the same request with a later lease
or a flag more, and still denied if it was. -/
def Succeeds (last next : WorkAttempt) : Prop :=
  last.generation < next.generation ∨
    (last.generation = next.generation ∧ last.stored = next.stored ∧
      (last.admissionDenied = true → next.admissionDenied = true) ∧
      (last.launchRetryAt < next.launchRetryAt ∨
        (last.launchRetryAt = next.launchRetryAt ∧ last.flags < next.flags)))

theorem Succeeds.irrefl (state : WorkAttempt) : ¬ Succeeds state state := by
  rintro (generation | ⟨-, -, -, lease | ⟨-, flags⟩⟩) <;> omega

theorem Succeeds.trans {first second third : WorkAttempt} (one : Succeeds first second)
    (two : Succeeds second third) : Succeeds first third := by
  rcases one with earlier | ⟨same, sameStored, denied, lease⟩
  · left
    rcases two with later | ⟨same, -⟩ <;> omega
  · rcases two with later | ⟨sameNext, sameStoredNext, deniedNext, leaseNext⟩
    · left
      omega
    · right
      exact ⟨same.trans sameNext, sameStored.trans sameStoredNext,
        fun isDenied => deniedNext (denied isDenied), by omega⟩

theorem Succeeds.generation_le {last next : WorkAttempt} (succeeds : Succeeds last next) :
    last.generation ≤ next.generation := by
  rcases succeeds with later | ⟨same, -⟩ <;> omega

section Runs

variable {app : App β} {workId : String} {base : List (Revision B β)}
  {log past : List (Event B β)} {writer owner : B} {last next : WorkAttempt}

theorem App.Follows.succeeds
    (follows : app.Follows workId base writer log (some (owner, last)) next) :
    Succeeds last next := by
  cases follows with
  | replaced owner last next admitted generation why =>
      left
      omega
  | resumed owner last retryAt later => exact .inr ⟨rfl, rfl, id, .inl later⟩
  | completed owner last unfinished =>
      refine .inr ⟨rfl, rfl, id, .inr ⟨rfl, ?_⟩⟩
      simp [WorkAttempt.flags, unfinished]
  | launched owner last unlaunched =>
      refine .inr ⟨rfl, rfl, id, .inr ⟨rfl, ?_⟩⟩
      simp [WorkAttempt.flags, unlaunched]
  | denied last admitted right idle =>
      refine .inr ⟨rfl, rfl, fun _ => rfl, .inr ⟨rfl, ?_⟩⟩
      simp [WorkAttempt.flags, admitted]

/-- In an ordered list every element comes before the last one or is it. -/
theorem eq_or_rel_getLast {γ : Type} {relation : γ → γ → Prop} {items : List γ} {final item : γ}
    (ordered : items.Pairwise relation) (isLast : items.getLast? = some final)
    (member : item ∈ items) : item = final ∨ relation item final := by
  obtain ⟨init, split⟩ := List.getLast?_eq_some_iff.mp isLast
  subst split
  rcases List.mem_append.mp member with early | last
  · exact .inr ((List.pairwise_append.mp ordered).2.2 item early final (by simp))
  · exact .inl (List.mem_singleton.mp last)

/-- The revisions of the record are the texts of its states. -/
theorem writesTo_work (legal : Legal (app.Allows workId base) log) :
    writesTo (.work workId) log =
      (app.works workId log).map fun entry => ⟨entry.1, app.serde.workBytes entry.2⟩ := by
  induction legal with
  | nil => rfl
  | snoc log event earlier allowed ih =>
      rcases allowed.works_cases with quiet | ⟨writer, next, isWrite, -⟩
      · rw [works_quiet quiet, writesTo_append, ih]
        simp [writesTo, quiet]
      · subst isWrite
        rw [works_write, writesTo_append, ih]
        simp [writesTo, Event.writeTo]

/-- Each revision succeeds all before it. -/
theorem works_pairwise (legal : Legal (app.Allows workId base) log) :
    (app.works workId log).Pairwise fun earlier later => Succeeds earlier.2 later.2 := by
  induction legal with
  | nil => exact List.Pairwise.nil
  | snoc log event earlier allowed ih =>
      rcases allowed.works_cases with quiet | ⟨writer, next, isWrite, follows⟩
      · rw [works_quiet quiet]
        exact ih
      · subst isWrite
        rw [works_write]
        apply List.pairwise_append.mpr
        refine ⟨ih, List.pairwise_singleton _ _, ?_⟩
        intro revision member final isFinal
        rw [List.mem_singleton.mp isFinal]
        cases last : app.workAt workId log with
        | none =>
            have empty : app.works workId log = [] := by simpa [App.workAt] using last
            rw [empty] at member
            cases member
        | some lastRevision =>
            rw [last] at follows
            rcases eq_or_rel_getLast ih last member with same | before
            · rw [same]
              exact follows.succeeds
            · exact before.trans follows.succeeds

/-- Of two revisions one succeeds the other. -/
theorem works_comparable (legal : Legal (app.Allows workId base) log)
    {first second : B × WorkAttempt} (firstIn : first ∈ app.works workId log)
    (secondIn : second ∈ app.works workId log) :
    first = second ∨ Succeeds first.2 second.2 ∨ Succeeds second.2 first.2 := by
  have ordered := works_pairwise legal
  refine List.Pairwise.forall_of_forall_of_flip (R := fun first second : B × WorkAttempt =>
    first = second ∨ Succeeds first.2 second.2 ∨ Succeeds second.2 first.2) ?_ ?_ ?_
    firstIn secondIn
  · exact fun _ _ => .inl rfl
  · exact ordered.imp fun succeeds => .inr (.inl succeeds)
  · exact ordered.imp fun succeeds => .inr (.inr succeeds)

/-- Two revisions of one generation are of one request. -/
theorem stored_eq_of_generation (legal : Legal (app.Allows workId base) log)
    {first second : B × WorkAttempt} (firstIn : first ∈ app.works workId log)
    (secondIn : second ∈ app.works workId log)
    (same : first.2.generation = second.2.generation) :
    first.2.stored = second.2.stored := by
  rcases works_comparable legal firstIn secondIn with equal | before | after
  · rw [equal]
  · rcases before with later | ⟨-, stored, -⟩
    · omega
    · exact stored
  · rcases after with later | ⟨-, stored, -⟩
    · omega
    · exact stored.symm

/-- A revision that is still there as it was is the one that was written. -/
theorem owner_eq_of_current (legal : Legal (app.Allows workId base) log) (older : past <+: log)
    {leaseholder : B} (leased : app.workAt workId past = some (leaseholder, last))
    (found : app.workAt workId log = some (owner, last)) :
    leaseholder = owner ∧ app.works workId past = app.works workId log := by
  have ordered := works_pairwise legal
  obtain ⟨more, extended⟩ : app.works workId past <+: app.works workId log := works_mono older
  rw [App.workAt, ← extended, List.getLast?_append] at found
  rw [← extended] at ordered
  cases final : more.getLast? with
  | some revision =>
      rw [final] at found
      cases found
      exact absurd ((List.pairwise_append.mp ordered).2.2 _ (List.mem_of_getLast? leased) _
        (List.mem_of_getLast? final)) (Succeeds.irrefl last)
  | none =>
      have empty : more = [] := by simpa using final
      rw [final] at found
      rw [empty, List.append_nil] at extended
      refine ⟨?_, extended⟩
      have same := leased.symm.trans found
      cases same
      rfl

/-- A slot stays in the ledger until a later one is written after its time is over. -/
theorem slot_kept (legal : Legal (app.Allows workId base) log) (older : past <+: log)
    {slot : WorkerReservation} (held : slot ∈ (app.ledgerAfter base past).reservations) :
    slot ∈ (app.ledgerAfter base log).reservations ∨
      (slot.launchUntil + 900 < (app.ledgerAfter base log).observedAt ∧
        ∃ writer, Event.wrote writer .admission
          (app.serde.ledgerBytes (app.ledgerAfter base log)) ∈ log) := by
  refine legal.since (fun log => slot ∈ (app.ledgerAfter base log).reservations ∨
    (slot.launchUntil + 900 < (app.ledgerAfter base log).observedAt ∧
      ∃ writer, Event.wrote writer .admission
        (app.serde.ledgerBytes (app.ledgerAfter base log)) ∈ log)) older (.inl held) ?_
  intro log event _ allowed holds
  rcases allowed.ledger_cases with quiet | ⟨writer, next, isWrite, keeps⟩
  · rw [ledgerAfter_quiet quiet]
    refine holds.imp_right fun gone => ⟨gone.1, ?_⟩
    obtain ⟨writer, written⟩ := gone.2
    exact ⟨writer, List.mem_append_left _ written⟩
  · subst isWrite
    rw [ledgerAfter_write]
    have written : ∃ author, Event.wrote author .admission (app.serde.ledgerBytes next) ∈
        log ++ [Event.wrote writer .admission (app.serde.ledgerBytes next)] :=
      ⟨writer, by simp⟩
    rcases holds with held | ⟨late, -⟩
    · exact (keeps.kept slot held).imp_right fun gone => ⟨gone, written⟩
    · exact .inr ⟨lt_of_lt_of_le late keeps.later, written⟩

/-- The event that denied the attempt a revision is of. -/
def App.DenialIn (app : App β) (workId : String) (base : List (Revision B β))
    (log : List (Event B β)) (revision : WorkAttempt) : Prop :=
  ∃ before writer attempt,
    Occurs log before (.wrote writer (.work workId)
      (app.serde.workBytes { attempt with admissionDenied := true })) ∧
    app.workAt workId before = some (writer, attempt) ∧ attempt.admissionDenied = false ∧
    app.DenialRight workId base attempt.stored before ∧ ¬ LaunchedBy writer before ∧
    attempt.generation = revision.generation ∧ attempt.stored = revision.stored

theorem denialIn_of_denied (legal : Legal (app.Allows workId base) log)
    {revision : B × WorkAttempt} (member : revision ∈ app.works workId log)
    (isDenied : revision.2.admissionDenied = true) :
    app.DenialIn workId base log revision.2 := by
  induction legal generalizing revision with
  | nil => cases member
  | snoc log event earlier allowed ih =>
      -- the event was in the log before, or it is the last one
      have inherited : ∀ {old : B × WorkAttempt}, old ∈ app.works workId log →
          old.2.admissionDenied = true → old.2.generation = revision.2.generation →
          old.2.stored = revision.2.stored →
          app.DenialIn workId base (log ++ [event]) revision.2 := by
        intro old oldIn oldDenied sameGeneration sameStored
        obtain ⟨before, writer, attempt, occurs, stood, admitted, right, idle, generation, stored⟩ :=
          ih oldIn oldDenied
        exact ⟨before, writer, attempt, occurs.of_isPrefix (List.prefix_append _ _), stood, admitted,
          right, idle, generation.trans sameGeneration, stored.trans sameStored⟩
      rcases allowed.works_cases with quiet | ⟨writer, next, isWrite, follows⟩
      · rw [works_quiet quiet] at member
        exact inherited member isDenied rfl rfl
      · subst isWrite
        rw [works_write] at member
        rcases List.mem_append.mp member with old | new
        · exact inherited old isDenied rfl rfl
        · cases List.mem_singleton.mp new
          cases last : app.workAt workId log with
          | none =>
              rw [last] at follows
              cases follows with
              | opened next admitted => simp [admitted] at isDenied
          | some lastRevision =>
              have lastIn : lastRevision ∈ app.works workId log := List.mem_of_getLast? last
              rw [last] at follows
              cases follows with
              | replaced owner last next admitted generation why => simp [admitted] at isDenied
              | resumed owner last retryAt later => exact inherited lastIn isDenied rfl rfl
              | completed owner last unfinished => exact inherited lastIn isDenied rfl rfl
              | launched owner last unlaunched => exact inherited lastIn isDenied rfl rfl
              | denied attempt admitted right idle =>
                  exact ⟨log, writer, attempt, occurs_last, last, admitted, right, idle, rfl, rfl⟩

/-- If a worker was launched for a job, no revision with that job is denied, where jobs of
different generations have different ids. -/
theorem launched_not_denied (legal : Legal (app.Allows workId base) log)
    (distinct : ∀ first ∈ app.works workId log, ∀ second ∈ app.works workId log,
      first.2.stored.jobId = second.2.stored.jobId → first.2.generation = second.2.generation)
    {launcher : B} {jobId : String} {deadline : Nat}
    (launched : Event.launched launcher jobId deadline ∈ log) {revision : B × WorkAttempt}
    (member : revision ∈ app.works workId log) (ofJob : revision.2.stored.jobId = jobId) :
    revision.2.admissionDenied = false := by
  by_contra isDenied
  obtain ⟨beforeDenial, writer, attempt, denial, stood, admitted, right, idle, generation, stored⟩ :=
    denialIn_of_denied legal member (by simpa using isDenied)
  obtain ⟨beforeLaunch, launch⟩ := exists_occurs launched
  obtain ⟨notDenied, seen, state, seenBefore, leased, stateJob, stateAdmitted, slot, held, slotJob,
    slotUntil⟩ := legal.allowed launch
  have seenPast : seen <+: log := seenBefore.trans launch.before_isPrefix
  have stateIn : (launcher, state) ∈ app.works workId log :=
    (works_mono seenPast).subset (List.mem_of_getLast? leased)
  have attemptIn : (writer, attempt) ∈ app.works workId log :=
    (works_mono denial.before_isPrefix).subset (List.mem_of_getLast? stood)
  have sameJob : state.stored.jobId = attempt.stored.jobId := by
    rw [stateJob, stored, ofJob]
  have sameGeneration : state.generation = attempt.generation :=
    distinct _ stateIn _ attemptIn sameJob
  have sameStored : state.stored = attempt.stored :=
    stored_eq_of_generation legal stateIn attemptIn sameGeneration
  rcases denial.before_or_after seenPast with seenFirst | denialFirst
  · obtain ⟨moment, momentPast, stoodSince, observed, noSlot⟩ := right
    rcases List.prefix_or_prefix_of_prefix seenFirst momentPast with seenEarlier | momentEarlier
    · -- the slot was there first, so it still was when the job was denied
      have past := momentPast.trans denial.before_isPrefix
      rcases slot_kept (legal.of_isPrefix past) seenEarlier held with kept | ⟨late, -⟩
      · exact noSlot slot kept (slotJob.trans (stateJob.symm.trans sameJob))
      · rw [slotUntil, sameStored] at late
        omega
    · -- the record stood still in between, so both are the same invocation
      have stoodStill : app.works workId seen = app.works workId beforeDenial := by
        have grew : app.works workId moment <+: app.works workId seen :=
          works_mono momentEarlier
        rw [stoodSince] at grew
        exact (works_mono seenFirst).eq_of_length
          (le_antisymm (works_mono seenFirst).length_le grew.length_le)
      rw [App.workAt, stoodStill] at leased
      cases leased.symm.trans stood
      rcases denial.before_or_after launch with launchFirst | denialFirst
      · exact idle ⟨jobId, deadline, launchFirst.subset (by simp)⟩
      · rcases occurs_append_iff.mp denialFirst with ⟨-, impossible⟩ | denialFirst
        · cases impossible
        · exact notDenied ⟨_, _, _, _, denialFirst, stood, admitted, rfl⟩
  · -- the attempt was denied before the launcher saw it
    have deniedIn : (writer, { attempt with admissionDenied := true }) ∈ app.works workId seen := by
      refine (works_mono denialFirst).subset ?_
      rw [works_write]
      simp
    rcases eq_or_rel_getLast (works_pairwise (legal.of_isPrefix seenPast)) leased deniedIn with
      same | succeeds
    · cases same
      cases stateAdmitted
    · rcases succeeds with later | ⟨-, -, stillDenied, -⟩
      · simp only at later
        omega
      · rw [stillDenied rfl] at stateAdmitted
        cases stateAdmitted

/-- A new generation follows only an attempt that could be replaced then. -/
theorem generation_justified (legal : Legal (app.Allows workId base) log)
    {before after : List (B × WorkAttempt)} {revision following : B × WorkAttempt}
    (split : app.works workId log = before ++ revision :: following :: after)
    (moved : following.2.generation ≠ revision.2.generation) :
    ∃ past, past <+: log ∧ app.works workId past = before ++ [revision] ∧
      app.Replaceable past revision.2 following.2 := by
  induction legal generalizing after with
  | nil => simp [App.works, writesTo] at split
  | snoc log event earlier allowed ih =>
      rcases allowed.works_cases with quiet | ⟨writer, next, isWrite, follows⟩
      · rw [works_quiet quiet] at split
        obtain ⟨past, older, rest⟩ := ih split
        exact ⟨past, older.trans (List.prefix_append _ _), rest⟩
      · subst isWrite
        rw [works_write] at split
        rcases List.eq_nil_or_concat after with isLast | ⟨rest, final, isMore⟩
        · -- the new revision is the one that moved on
          subst isLast
          have whole : app.works workId log ++ [(writer, next)] =
              (before ++ [revision]) ++ [following] := by
            simpa using split
          obtain ⟨sameWorks, sameLast⟩ := List.append_inj' whole rfl
          cases List.singleton_inj.mp sameLast
          have stands : app.workAt workId log = some revision := by
            rw [App.workAt, sameWorks]
            simp
          rw [stands] at follows
          refine ⟨log, List.prefix_append _ _, sameWorks, ?_⟩
          cases follows with
          | replaced owner last next admitted generation why => exact why
          | _ => exact absurd rfl moved
        · subst isMore
          have whole : app.works workId log ++ [(writer, next)] =
              (before ++ revision :: following :: rest) ++ [final] := by
            simpa using split
          obtain ⟨sameWorks, -⟩ := List.append_inj' whole rfl
          obtain ⟨past, older, rest⟩ := ih sameWorks
          exact ⟨past, older.trans (List.prefix_append _ _), rest⟩

end Runs

end Usd8Core.JobApi
