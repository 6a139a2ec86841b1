import Usd8Core.JobApi.WorkSafety

/-!
# Submissions of one work in any order

Invocations of `submit_canonical` share one clock and end within 900 seconds; the
launcher releases a slot only 900 seconds after its launch deadline.  Every request of
every invocation keeps the log of the work legal.
-/

set_option autoImplicit false

namespace Usd8Core.JobApi

open Usd8Core.Lib.CheckedCall (maxU64 saturatingAdd)
open Usd8Core.Lib.EventLog
open Usd8Core.Lib.Interleaving

structure Invocation where
  start : Nat
  request : CanonicalRequest

abbrev Submitter := Caller Invocation

variable {β : Type}

/-- A request is served within 900 seconds of the invocation's start; the clock tells the
time, a slot is released in time, and the store does not report a denial. -/
def submitHonest (agent : Invocation) (w : World Submitter β) (op : Op β) (reply : Reply β op) :
    Prop :=
  w.clock ≤ agent.start + 900 ∧
    match op, reply with
    | .clock, now => now = w.clock ∧ now ≤ maxU64
    | .canReleaseReservation _ launchUntil now, released =>
        released = .ok true → launchUntil + 900 < now
    | .getVersioned _ _, found => found ≠ .error .admissionLimited
    | .compareExchange _ _ _, swapped => swapped ≠ .error .admissionLimited
    | _, _ => True

/-- Invocations of `submit_canonical` for one work id, with any requests. -/
def App.submitMachine [DecidableEq β] (app : App β) (workId : String) :
    Machine (World Submitter β) Invocation (Op β) (Reply β) ServiceError SubmitOutcome :=
  appMachine (fun caller => caller) submitHonest fun w agent program =>
    agent.start = w.clock ∧ program = app.submitCanonical workId agent.request

def App.submitRely (app : App β) (workId : String) (start : World Submitter β) :
    Rely (World Submitter β) Invocation :=
  relyOn (app.WorkValid workId start) (app.Idle workId)

section Programs

variable [DecidableEq β] {app : App β} {workId : String} {start w : World Submitter β}
  {caller : Submitter}

/-- Safe, and leaving the caller idle if it was. -/
abbrev App.Careful (app : App β) (workId : String) (start : World Submitter β)
    (caller : Submitter) {α : Type} (post : Except ServiceError α → World Submitter β → Prop)
    (program : Prog β α) (w : World Submitter β) : Prop :=
  Safe (app.submitMachine workId) (app.submitRely workId start).careful caller post program w

theorem careful_get (key : Key) (maxBytes : Nat) :
    app.Careful workId start caller (OnOk fun bytes current =>
      Event.read key bytes ∈ current.events) (get key maxBytes) w := by
  refine (safe_get key maxBytes ?_).endsOf (fun _ _ _ read => read.1) fun _ _ _ _ => trivial
  intro moment bytes valid
  refine ⟨valid.record _ (fun _ => rfl) trivial, fun idle => ?_⟩
  exact idle.append rfl (by simp) (by simp)

/-- Objects besides the ledger and the record may be created. -/
theorem careful_create {key : Key} (notLedger : key ≠ .admission) (notWork : key ≠ .work workId)
    (value : β) :
    app.Careful workId start caller (OnOk fun _ _ => True) (create key value) w := by
  refine (safe_create key value ?_).endsOf (fun _ _ _ _ => trivial) fun _ _ _ _ => trivial
  intro moment _ valid _
  exact ⟨valid.write_other value notLedger notWork, fun idle => idle.write_other value notWork⟩

theorem careful_createSame {key : Key} (notLedger : key ≠ .admission)
    (notWork : key ≠ .work workId) (value : β) :
    app.Careful workId start caller (OnOk fun _ _ => True) (App.createSame key value) w := by
  refine (careful_create notLedger notWork value).bindOk fun outcome _ _ _ _ => ?_
  cases outcome with
  | created => exact safe_done () fun _ _ _ => trivial
  | «exists» existing =>
      exact (safe_failIf _ _).endsOf (fun _ _ _ _ => trivial) fun _ _ _ _ => trivial

theorem careful_retainCompletion (stored : StoredRequest) (bytes : β) :
    app.Careful workId start caller (OnOk fun _ _ => True) (app.retainCompletion stored bytes) w := by
  refine (careful_createSame (by simp) (by simp) bytes).bindOk fun _ _ _ _ _ => ?_
  exact careful_createSame (by simp) (by simp) _

/-- Marking the attempt that was read as completed. -/
theorem careful_complete (absent : start.objects (.work workId) = []) {key : String}
    {object : VersionedObject β} {state : WorkAttempt} {read : World Submitter β}
    (readValid : app.WorkValid workId start read) (grown : Grows read w)
    (found : read.current (.work key) = some object)
    (parsed : app.serde.parseWork object.bytes = some state) (unfinished : state.completed = false) :
    app.Careful workId start caller (OnOk fun _ _ => True)
      (compareExchange (.work key) (some object.revision)
        (app.serde.workBytes { state with completed := true })) w := by
  refine (safe_compareExchange _ _ _ ?_).forget
  intro moment since valid isAt _
  by_cases same : key = workId
  · subst same
    have isAtRead : moment.IsAt (.work key)
        ((read.current (.work key)).map VersionedObject.revision) := by
      rw [found]
      exact isAt
    have stood := works_eq_of_isAt readValid valid (grown.trans since.grows) isAtRead
    obtain ⟨owner, last, stands, sameBytes⟩ := readValid.work_found absent found
    rw [sameBytes, app.serde.parseWork_workBytes] at parsed
    cases parsed
    have standsNow : app.workAt key moment.events = some (owner, state) := by
      rw [App.workAt, stood]
      exact stands
    refine ⟨valid.write_work _ ?_, fun idle => idle.append rfl (by simp) ?_⟩
    · rw [standsNow]
      exact .completed owner state unfinished
    · intro next otherOwner otherLast sameEvent present admitted
      injection sameEvent with _ _ sameNext
      rw [standsNow] at present
      cases present
      rw [← app.serde.workBytes_injective sameNext]
      exact admitted
  · have other : Key.work key ≠ .work workId := fun impossible => by
      injection impossible with sameId
      exact same sameId
    exact ⟨valid.write_other _ (by simp) other, fun idle => idle.write_other _ other⟩

theorem careful_sealLoop (absent : start.objects (.work workId) = []) (key : String)
    (stored : StoredRequest) (attempts : Nat) :
    app.Careful workId start caller (OnOk fun _ _ => True) (app.sealLoop key stored attempts) w := by
  induction attempts generalizing w with
  | zero => exact safe_fail _
  | succ attempts ih =>
      refine (safe_getVersioned _ _).bindOk fun current w1 _ _ read => ?_
      obtain ⟨moment, during, found, -⟩ := read
      cases current with
      | none => exact safe_done _ fun _ _ _ => trivial
      | some object =>
          refine (safe_orFail _ _).bindOk fun state w2 since2 _ parsed => ?_
          split
          · exact safe_done _ fun _ _ _ => trivial
          · split
            · exact safe_done _ fun _ _ _ => trivial
            · rename_i unfinished
              refine (careful_complete absent during.holds (during.before.trans since2.grows) found
                parsed (by simpa using unfinished)).bindOk fun swapped _ _ _ _ => ?_
              cases swapped with
              | true => exact safe_done _ fun _ _ _ => trivial
              | false => exact ih

theorem careful_publishSettlement (absent : start.objects (.work workId) = [])
    (stored : StoredRequest) (bytes : β) (terminal : TerminalEnvelope) :
    app.Careful workId start caller (OnOk fun _ _ => True)
      (app.publishSettlement stored bytes terminal) w := by
  refine (safe_ofExcept _).bindOk fun found _ _ _ _ => ?_
  cases found with
  | none => exact safe_done _ fun _ _ _ => trivial
  | some locator =>
      have isSealed : ∀ w, app.Careful workId start caller (OnOk fun _ _ => True)
          (app.sealSettlementCompletion stored) w := by
        intro w
        refine (safe_ofExcept _).bindOk fun key _ _ _ _ => ?_
        refine (careful_sealLoop absent key stored 16).bindOk fun isSealed _ _ _ _ => ?_
        cases isSealed with
        | false => exact safe_done _ fun _ _ _ => trivial
        | true =>
            refine (safe_noteSealed stored ?_).bindOk fun _ _ _ _ _ => ?_
            · intro moment _ valid
              exact ⟨valid.record _ (fun _ => rfl) trivial,
                fun idle => idle.append rfl (by simp) (by simp)⟩
            · exact safe_done _ fun _ _ _ => trivial
      refine (safe_failIf _ _).bindOk fun _ _ _ _ _ => ?_
      refine (isSealed _).bindOk fun isSealed _ _ _ _ => ?_
      cases isSealed with
      | false => exact safe_done _ fun _ _ _ => trivial
      | true =>
          refine (careful_create (by simp) (by simp) bytes).bindOk fun outcome _ _ _ _ => ?_
          cases outcome with
          | created => exact safe_done _ fun _ _ _ => trivial
          | «exists» existing => exact safe_checkPublished app _ _ _

/-! ## What a submission decides -/

theorem careful_completionBytes (jobId : String) :
    app.Careful workId start caller (OnOk fun found current => ∀ bytes ∈ found, ∃ key,
        (key = .terminal jobId ∨ key = .completion jobId) ∧
          Event.read key (some bytes) ∈ current.events)
      (app.completionBytes jobId) w := by
  refine (careful_get _ _).bindOk fun candidate w1 _ _ read => ?_
  cases candidate with
  | some bytes =>
      apply safe_done
      intro current since _ other same
      cases same
      exact ⟨_, .inl rfl, since.grows.events.subset read⟩
  | none =>
      refine (careful_get _ _).endsOf (fun found current _ read => ?_) fun _ _ _ _ => trivial
      intro bytes same
      cases same
      exact ⟨_, .inr rfl, read⟩

omit [DecidableEq β] in
theorem parseCandidate_ok {jobId : String} {candidate : Except ServiceError (Option β)}
    {terminal : TerminalEnvelope} {invalid : Bool}
    (parsed : app.parseCandidate jobId candidate = .ok (some terminal, invalid)) :
    ∃ bytes, candidate = .ok (some bytes) ∧
      app.parseTerminal bytes (some jobId) = .ok terminal := by
  cases candidate with
  | error error =>
      cases error <;> cases parsed
  | ok found =>
      cases found with
      | none => cases parsed
      | some bytes =>
          refine ⟨bytes, rfl, ?_⟩
          simp only [App.parseCandidate] at parsed
          cases result : app.parseTerminal bytes (some jobId) with
          | ok value =>
              rw [result] at parsed
              cases parsed
              rfl
          | error error =>
              rw [result] at parsed
              cases error <;> cases parsed

/-- An unverified candidate that is not invalid is a failure. -/
theorem careful_judgeCandidate (state : WorkAttempt) (terminal : Option TerminalEnvelope)
    (invalid : Bool) :
    app.Careful workId start caller (OnOk fun verdict _ => verdict.1 = false →
        state.completed = false ∧
          (verdict.2 = false → ∀ candidate ∈ terminal, candidate.status = .failed))
      (app.judgeCandidate state terminal invalid) w := by
  unfold App.judgeCandidate
  split
  · exact safe_done _ fun _ _ _ impossible => by cases impossible
  · rename_i unfinished
    have isOpen : state.completed = false := by simpa using unfinished
    cases completed : terminal.filter fun t => t.status == .completed with
    | none =>
        apply safe_done
        intro _ _ _ _
        refine ⟨isOpen, fun _ candidate isCandidate => ?_⟩
        cases isCandidate
        cases status : candidate.status with
        | failed => rfl
        | completed => simp [status] at completed
    | some candidate =>
        refine (safe_verifyCompletion app _ _).attempt.bindOk fun verdict _ _ _ _ => ?_
        cases verdict with
        | ok done => exact safe_done _ fun _ _ _ impossible => by cases impossible
        | error error =>
            cases error with
            | invalidStoredResult =>
                exact safe_done _ fun _ _ _ _ => ⟨isOpen, fun impossible => by cases impossible⟩
            | _ => exact safe_fail _

theorem careful_finishWork (absent : start.objects (.work workId) = []) {read : World Submitter β}
    (readValid : app.WorkValid workId start read) (grown : Grows read w)
    {object : VersionedObject β} {state : WorkAttempt}
    (found : read.current (.work workId) = some object)
    (parsed : app.serde.parseWork object.bytes = some state)
    (terminal : Option TerminalEnvelope) (candidate : Except ServiceError (Option β)) :
    app.Careful workId start caller (OnOk fun decision _ => ∀ generation resume,
        decision ≠ .proceed generation resume)
      (app.finishWork workId state object.revision terminal candidate) w := by
  refine (safe_orFail _ _).bindOk fun terminal w1 since1 _ _ => ?_
  refine (safe_verifyCompletion app _ _).bindOk fun _ w2 since2 _ _ => ?_
  refine (safe_ofExcept _).bindOk fun candidate w3 since3 _ _ => ?_
  refine (safe_orFail _ _).bindOk fun bytes w4 since4 _ _ => ?_
  refine (careful_retainCompletion _ _).bindOk fun _ w5 since5 _ _ => ?_
  have finished : ∀ w, app.Careful workId start caller (OnOk fun decision _ =>
      ∀ generation resume, decision ≠ App.Decision.proceed generation resume) (do
        app.publishSettlement state.stored bytes terminal
        .done (App.Decision.finished state.stored.jobId)) w := by
    intro w
    refine (careful_publishSettlement absent _ _ _).bindOk fun _ _ _ _ _ => ?_
    exact safe_done _ fun _ _ _ _ _ impossible => by cases impossible
  split
  · exact finished _
  · rename_i unfinished
    have since : Grows read w5 := grown.trans (since1.grows.trans (since2.grows.trans
      (since3.grows.trans (since4.grows.trans since5.grows))))
    refine (careful_complete absent readValid since found parsed
      (by simpa using unfinished)).bindOk fun swapped _ _ _ _ => ?_
    cases swapped with
    | true => exact finished _
    | false => exact safe_done _ fun _ _ _ _ _ impossible => by cases impossible

/-- What a decision at `now` says about the attempt it was made on. -/
def App.Decided (app : App β) (last : WorkAttempt) (now : Nat) (current : World Submitter β) :
    App.Decision → Prop
  | .finished _ => True
  | .again => True
  | .proceed generation none => generation = last.generation + 1 ∧
      (last.admissionDenied = true ∨ app.FailureSeen last.stored.jobId current.events ∨
        last.stored.expiresAt < now)
  | .proceed _ (some resumed) =>
      resumed = { last with launchRetryAt := saturatingAdd now 60 } ∧
        last.launchRetryAt < saturatingAdd now 60 ∧ last.launched = false ∧
        last.completed = false ∧ last.admissionDenied = false

theorem careful_continueWork (now : Nat) (state : WorkAttempt) (terminal : Option TerminalEnvelope)
    (invalid : Bool) (unfinished : state.completed = false)
    (failure : ∀ candidate ∈ terminal, invalid = false →
      app.FailureSeen state.stored.jobId w.events) :
    app.Careful workId start caller (OnOk fun decision current => app.Decided state now current
      decision) (App.continueWork now state terminal.isSome invalid) w := by
  unfold App.continueWork
  split
  · rename_i replaceable
    refine (safe_failIf _ _).bindOk fun _ w1 since1 _ _ => ?_
    apply safe_done
    intro current since2 _
    refine ⟨rfl, ?_⟩
    rcases replaceable with isDenied | ⟨hasTerminal, notInvalid⟩ | expired
    · exact .inl isDenied
    · obtain ⟨candidate, isCandidate⟩ := Option.isSome_iff_exists.mp hasTerminal
      obtain ⟨key, bytes, parsed, ofJob, member, rest⟩ :=
        failure candidate isCandidate (by simpa using notInvalid)
      have kept := (since1.grows.trans since2.grows).events.subset member
      exact .inr (.inl ⟨key, bytes, parsed, ofJob, kept, rest⟩)
    · exact .inr (.inr expired)
  · rename_i irreplaceable
    simp only [not_or] at irreplaceable
    split
    · rename_i resumable
      obtain ⟨-, notLaunched, retry, inTime⟩ := resumable
      apply safe_done
      intro _ _ _
      refine ⟨rfl, ?_, by simpa using notLaunched, unfinished, by simpa using irreplaceable.1⟩
      simp only [saturatingAdd] at inTime ⊢
      omega
    · exact safe_done _ fun _ _ _ => trivial

theorem careful_examineWork (absent : start.objects (.work workId) = [])
    {read : World Submitter β} (readValid : app.WorkValid workId start read)
    (grown : Grows read w) {object : VersionedObject β}
    (found : read.current (.work workId) = some object) (request : CanonicalRequest) (now : Nat) :
    app.Careful workId start caller (OnOk fun decision current =>
        ∃ owner last, app.workAt workId read.events = some (owner, last) ∧
          app.Decided last now current decision)
      (app.examineWork workId request now object) w := by
  obtain ⟨owner, last, stands, sameBytes⟩ := readValid.work_found absent found
  refine (safe_orFail _ _).bindOk fun state w1 since1 _ parsed => ?_
  have isLast : state = last := by
    rw [sameBytes, app.serde.parseWork_workBytes] at parsed
    exact (Option.some.inj parsed).symm
  subst isLast
  refine (safe_failIf _ _).bindOk fun _ w2 since2 _ _ => ?_
  refine (safe_failIf _ _).bindOk fun _ w3 since3 _ _ => ?_
  refine (careful_completionBytes _).attempt.bindOk fun candidate w4 since4 _ seen => ?_
  refine (safe_ofExcept _).bindOk fun parsedCandidate w5 since5 _ isParsed => ?_
  obtain ⟨terminal, invalid⟩ := parsedCandidate
  refine (careful_judgeCandidate _ _ _).bindOk fun verdict w6 since6 _ judged => ?_
  obtain ⟨verified, invalidNow⟩ := verdict
  have toW6 : Grows w4 w6 := since5.grows.trans since6.grows
  have since : Grows read w6 := grown.trans (since1.grows.trans (since2.grows.trans
    (since3.grows.trans (since4.grows.trans toW6))))
  cases verified with
  | true =>
      refine (careful_finishWork absent readValid since found ?_ _ _).endsOf ?_
        fun _ _ _ _ => trivial
      · rw [sameBytes, app.serde.parseWork_workBytes]
      · intro decision _ _ ended
        refine ⟨owner, state, stands, ?_⟩
        cases decision with
        | proceed generation resume => exact absurd rfl (ended generation resume)
        | _ => trivial
  | false =>
      obtain ⟨unfinished, failed⟩ := judged rfl
      have failure : ∀ candidate ∈ terminal, invalidNow = false →
          app.FailureSeen state.stored.jobId w6.events := by
        intro final isFinal notInvalid
        cases isFinal
        obtain ⟨bytes, isBytes, parses⟩ := parseCandidate_ok isParsed
        rw [isBytes] at seen
        obtain ⟨key, ofJob, member⟩ := seen bytes rfl
        exact ⟨key, bytes, final, ofJob, toW6.events.subset member, parses,
          failed notInvalid final rfl⟩
      refine (careful_continueWork now state terminal invalidNow unfinished failure).endsOf ?_
        fun _ _ _ _ => trivial
      exact fun decision current _ decided => ⟨owner, state, stands, decided⟩

/-! ## Reservation -/

omit [DecidableEq β] in
theorem released_late {agent : Invocation} {now : Nat} (fits : now ≤ maxU64)
    {slot : WorkerReservation} (released : app.ReleasedBy (submitHonest agent) now slot) :
    slot.launchUntil + 900 < now := by
  unfold App.ReleasedBy at released
  split at released
  · simp only [saturatingAdd] at released
    omega
  · obtain ⟨moment, -, honestly⟩ := released
    exact honestly rfl

theorem Admits.keepsSlots {policy : AdmissionPolicy} {released : Nat → WorkerReservation → Prop}
    {call : Reservation} {before after : AdmissionLedger}
    (admits : Admits policy released call before after)
    (late : ∀ slot, released after.observedAt slot →
      slot.launchUntil + 900 < after.observedAt) : KeepsSlots before after := by
  cases admits with
  | cleaned now retained cleanup noSlot =>
      refine ⟨cleanup.later, fun slot member => ?_⟩
      exact (cleanup.gone slot member).imp_right (late slot)
  | charged now retained cleanup noSlot free =>
      refine ⟨cleanup.later, fun slot member => ?_⟩
      exact (cleanup.gone slot member).imp (List.mem_append_left _) (late slot)

theorem careful_reserveWorker (call : Reservation) :
    app.Careful workId start caller
      (Ends (fun _ current => app.SlotSeen (app.WorkValid workId start) call w current)
        fun error current => error = .admissionLimited →
          app.DenialSeen (app.WorkValid workId start) (submitHonest caller.2) call w current)
      (app.reserveWorker call.jobId call.launchUntil) w := by
  have plain : Plain (β := β) (submitHonest caller.2) := by
    intro moment
    exact ⟨fun _ _ honestly => honestly.2 rfl, fun _ _ _ honestly => honestly.2 rfl⟩
  refine (safe_reserveLoop call 16 ?_).endsOf (fun _ _ _ seen => seen)
    fun _ _ _ seen isDenied => seen isDenied plain
  intro moment next since valid clockRead admits
  obtain ⟨read, -, untilNow, -, isNow, fits⟩ := clockRead
  rw [valid.ledgerIn] at admits
  refine ⟨valid.write_ledger next (admits.keepsSlots fun slot => released_late fits) ?_,
    fun idle => idle.write_other _ (by simp)⟩
  rw [isNow]
  exact untilNow.clock

/-! ## Launching -/

/-- The attempt is the caller's lease: it wrote the revision and nothing has happened to it. -/
structure App.Leased (app : App β) (workId : String) (caller : Submitter) (state : WorkAttempt)
    (w : World Submitter β) : Prop where
  wrote : ∃ past, past <+: w.events ∧ app.workAt workId past = some (caller, state)
  admitted : state.admissionDenied = false
  unlaunched : state.launched = false

omit [DecidableEq β] in
/-- A record with the bytes of the lease is the lease. -/
theorem leased_of_bytes (absent : start.objects (.work workId) = []) {state : WorkAttempt}
    (lease : app.Leased workId caller state w) {read : World Submitter β} (grown : Grows w read)
    (valid : app.WorkValid workId start read)
    (same : (read.current (.work workId)).map VersionedObject.bytes =
      some (app.serde.workBytes state)) :
    app.workAt workId read.events = some (caller, state) := by
  obtain ⟨past, older, wrote⟩ := lease.wrote
  rw [valid.current_work absent] at same
  cases stands : app.workAt workId read.events with
  | none =>
      rw [stands] at same
      cases same
  | some entry =>
      obtain ⟨owner, last⟩ := entry
      rw [stands] at same
      have isState := app.serde.workBytes_injective (Option.some.inj same)
      simp only at isState
      subst isState
      obtain ⟨sameOwner, -⟩ := owner_eq_of_current valid.legal (older.trans grown.events) wrote stands
      rw [sameOwner]

/-- The caller saw its lease stand at `read`, before the deadline of its request. -/
structure App.Owned (app : App β) (workId : String) (start : World Submitter β)
    (caller : Submitter) (state : WorkAttempt) (owned : VersionedObject β)
    (read : World Submitter β) : Prop where
  valid : app.WorkValid workId start read
  found : read.current (.work workId) = some owned
  stands : app.workAt workId read.events = some (caller, state)
  admitted : state.admissionDenied = false
  unlaunched : state.launched = false
  begun : caller.2.start < state.stored.launchUntil

omit [DecidableEq β] in
/-- While the revision is the one that was read, the lease stands. -/
theorem App.Owned.works_eq {state : WorkAttempt} {owned : VersionedObject β}
    {read moment : World Submitter β} (own : app.Owned workId start caller state owned read)
    (valid : app.WorkValid workId start moment) (grown : Grows read moment)
    (isAt : moment.IsAt (.work workId) (some owned.revision)) :
    app.works workId moment.events = app.works workId read.events := by
  refine works_eq_of_isAt own.valid valid grown ?_
  rw [own.found]
  exact isAt

/-- A reservation that succeeds has had its slot; a denial is recorded only if the job
never had one under the lease. -/
theorem safe_reserveOrDeny {state : WorkAttempt} {owned : VersionedObject β}
    {read : World Submitter β} (own : app.Owned workId start caller state owned read)
    (grown : Grows read w) (idle : app.Idle workId caller w) :
    Safe (app.submitMachine workId) (app.submitRely workId start) caller
      (OnOk fun _ current => app.Idle workId caller current ∧
        app.SlotSeen (app.WorkValid workId start)
          ⟨state.stored.jobId, state.stored.launchUntil⟩ w current)
      (app.reserveOrDeny workId state owned.revision) w := by
  have reserving : app.Careful workId start caller _
      (app.reserveWorker state.stored.jobId state.stored.launchUntil) w :=
    careful_reserveWorker ⟨state.stored.jobId, state.stored.launchUntil⟩
  refine reserving.attempt.bindCareful fun reserved w1 since1 _ seen => ?_
  cases reserved with
  | ok done =>
      apply safe_done
      intro current since _
      refine ⟨since.fresh (since1.fresh idle), ?_⟩
      obtain ⟨moment, during, slot⟩ := seen
      exact ⟨moment, ⟨during.after, during.holds, during.before.trans since.grows⟩, slot⟩
  | error error =>
      simp only
      split
      · rename_i isDenied
        obtain ⟨moment, now, during, clockRead, observed, noSlot⟩ := seen isDenied
        refine (safe_compareExchange_loose _ _ _ ?_).bindOk fun _ _ _ _ _ => safe_fail _
        intro atSwap since valid isAt
        have toSwap : Grows moment atSwap := during.before.trans since.grows
        have stoodAtSwap := own.works_eq valid (grown.trans (during.after.trans toSwap)) isAt
        have standsNow : app.workAt workId atSwap.events = some (caller, state) := by
          rw [App.workAt, stoodAtSwap]
          exact own.stands
        have stoodSince : app.works workId moment.events = app.works workId atSwap.events := by
          have early : app.works workId read.events <+: app.works workId moment.events :=
            works_mono (grown.trans during.after).events
          have late : app.works workId moment.events <+: app.works workId atSwap.events :=
            works_mono toSwap.events
          rw [stoodAtSwap] at late
          rw [stoodAtSwap]
          exact late.eq_of_length (le_antisymm late.length_le early.length_le)
        obtain ⟨atClock, -, -, inTime, isNow, -⟩ := clockRead
        refine valid.write_work _ ?_
        rw [standsNow]
        refine .denied state own.admitted ?_ (since.fresh (since1.fresh idle)).1
        refine ⟨moment.events, toSwap.events, stoodSince, ?_, ?_⟩
        · rw [← during.holds.ledgerIn]
          have isClock : now = atClock.clock := isNow
          have begun := own.begun
          omega
        · rw [← during.holds.ledgerIn]
          exact noSlot
      · exact safe_fail _

/-- A worker is launched only under the caller's lease and with the job's slot held. -/
theorem safe_launchAttempt (absent : start.objects (.work workId) = []) {state : WorkAttempt}
    (lease : app.Leased workId caller state w) (idle : app.Idle workId caller w)
    (begun : caller.2.start ≤ w.clock) :
    Safe (app.submitMachine workId) (app.submitRely workId start) caller (OnOk fun _ _ => True)
      (app.launchAttempt workId state (app.serde.workBytes state)) w := by
  refine (safe_failIf _ _).bindCareful fun _ w1 since1 _ _ => ?_
  refine (careful_createSame (by simp) (by simp) _).bindCareful fun _ w2 since2 _ _ => ?_
  refine (safe_getVersioned _ _).bindCareful fun owned w3 since3 _ read => ?_
  obtain ⟨atRead, duringRead, found, -⟩ := read
  have toRead : Grows w atRead := since1.grows.trans (since2.grows.trans duringRead.after)
  cases owned with
  | none => exact safe_done _ fun _ _ _ => trivial
  | some owned =>
      simp only
      split
      · exact safe_done _ fun _ _ _ => trivial
      · rename_i sameBytes
        have stands := leased_of_bytes absent lease toRead duringRead.holds
          (by rw [found]; simpa using sameBytes)
        refine safe_now.bindCareful fun now w4 since4 _ clockRead => ?_
        obtain ⟨atClock, duringClock, -, isNow, -⟩ := clockRead
        split
        · rename_i inTime
          have own : app.Owned workId start caller state owned atRead := by
            refine ⟨duringRead.holds, found, stands, lease.admitted, lease.unlaunched, ?_⟩
            have elapsed := (toRead.trans (duringRead.before.trans duringClock.after)).clock
            have isClock : now = atClock.clock := isNow
            simp only [StoredRequest.launchUntil]
            omega
          have fromRead : Grows atRead w4 := duringRead.before.trans since4.grows
          have idleNow := since4.fresh (since3.fresh (since2.fresh (since1.fresh idle)))
          refine (safe_reserveOrDeny own fromRead idleNow).bindOk fun _ w5 since5 _ reserved => ?_
          obtain ⟨idleReserved, atSlot, duringSlot, slot, held, slotJob, slotUntil⟩ := reserved
          refine (safe_getVersioned _ _).bindCareful fun fresh w6 since6 _ readAgain => ?_
          obtain ⟨atFresh, duringFresh, foundFresh, -⟩ := readAgain
          refine safe_now.bindCareful fun nowAgain w7 since7 _ clockAgain => ?_
          obtain ⟨atLast, duringLast, -, isNowAgain, -⟩ := clockAgain
          split
          · exact safe_done _ fun _ _ _ => trivial
          · rename_i launchable
            simp only [not_or, not_le, ne_eq, not_not] at launchable
            obtain ⟨beforeDeadline, sameAgain⟩ := launchable
            -- the slot is still in the ledger of the last read of the record
            have toFresh : Grows atSlot atFresh := duringSlot.before.trans duringFresh.after
            have standsFresh := leased_of_bytes absent lease
              (toRead.trans (fromRead.trans (since5.trans duringFresh.after))) duringFresh.holds
              (by rw [foundFresh]; exact sameAgain)
            have heldFresh : slot ∈ (app.ledgerAfter (start.objects .admission)
                atFresh.events).reservations := by
              rw [duringSlot.holds.ledgerIn] at held
              rcases slot_kept duringFresh.holds.legal toFresh.events held with kept | ⟨late, written⟩
              · exact kept
              · obtain ⟨author, written⟩ := written
                have timely := duringFresh.holds.observed author _ written
                have elapsed := (duringFresh.before.trans duringLast.after).clock
                have isClock : nowAgain = atLast.clock := isNowAgain
                simp only [StoredRequest.launchUntil] at slotUntil
                omega
            have idleLast := since7.fresh (since6.fresh idleReserved)
            have freshToLast : Grows atFresh w7 := duringFresh.before.trans since7.grows
            refine (safe_launchBefore_loose _ _ ?_).bindOk fun _ w8 since8 _ _ => ?_
            · intro moment since valid
              refine valid.record _ (fun _ => rfl) ⟨(since.fresh idleLast).2, atFresh.events, state,
                (freshToLast.trans since.grows).events, standsFresh, rfl, lease.admitted, slot,
                heldFresh, slotJob, slotUntil⟩
            · refine (safe_compareExchange_loose _ _ _ ?_).bindOk fun _ _ _ _ _ => ?_
              · intro moment since valid isAt
                have stood := own.works_eq valid (fromRead.trans (since5.trans
                  (since6.grows.trans (since7.grows.trans (since8.trans since.grows))))) isAt
                have standsNow : app.workAt workId moment.events = some (caller, state) := by
                  rw [App.workAt, stood]
                  exact stands
                refine valid.write_work _ ?_
                rw [standsNow]
                exact .launched caller state lease.unlaunched
              · exact safe_done _ fun _ _ _ => trivial
        · exact safe_done _ fun _ _ _ => trivial

/-! ## The whole submission -/

omit [DecidableEq β] in
theorem newAttempt_ok {request : CanonicalRequest} {now generation : Nat} {state : WorkAttempt}
    (attempted : app.newAttempt workId request now generation = .ok state) :
    state.generation = generation ∧ state.stored.createdAt = now ∧ state.launched = false ∧
      state.admissionDenied = false := by
  unfold App.newAttempt at attempted
  cases derived : deriveJobId app.crypto app.jobSecret
      (workId ++ ":" ++ toString generation) request with
  | error error =>
      rw [derived] at attempted
      cases attempted
  | ok jobId =>
      rw [derived] at attempted
      cases attempted
      exact ⟨rfl, rfl, rfl, rfl⟩

/-- The decision to go on, made on the record as it was read. -/
def App.GoesOn (app : App β) (workId : String) (read current : World Submitter β) (now : Nat)
    (generation : Nat) (resume : Option WorkAttempt) : Prop :=
  (app.workAt workId read.events = none ∧ resume = none) ∨
    ∃ owner last, app.workAt workId read.events = some (owner, last) ∧
      app.Decided last now current (.proceed generation resume)

/-- The attempt a decision goes on with: a resumed or a new one. -/
def App.LeaseOf (app : App β) (workId : String) (request : CanonicalRequest) (now : Nat)
    (generation : Nat) (resume : Option WorkAttempt) (state : WorkAttempt) : Prop :=
  match resume with
  | some resumed => state = resumed
  | none => app.newAttempt workId request now generation = .ok state

omit [DecidableEq β] in
theorem lease_follows {read moment : World Submitter β} {request : CanonicalRequest}
    {now generation : Nat} {resume : Option WorkAttempt} {state : WorkAttempt}
    (goesOn : app.GoesOn workId read w now generation resume)
    (lease : app.LeaseOf workId request now generation resume state) (grown : Grows w moment)
    (stood : app.works workId moment.events = app.works workId read.events) :
    app.Follows workId (start.objects .admission) caller moment.events
      (app.workAt workId moment.events) state ∧
      state.admissionDenied = false ∧ state.launched = false := by
  rw [App.workAt, stood]
  cases resume with
  | none =>
      obtain ⟨isGeneration, created, unlaunched, admitted⟩ := newAttempt_ok lease
      refine ⟨?_, admitted, unlaunched⟩
      rcases goesOn with ⟨isNone, -⟩ | ⟨owner, last, stands, next, why⟩
      · rw [App.workAt] at isNone
        rw [isNone]
        exact .opened state admitted
      · rw [App.workAt] at stands
        rw [stands]
        refine .replaced owner last state admitted (isGeneration.trans next) ?_
        rcases why with isDenied | failure | expired
        · exact .inl isDenied
        · obtain ⟨key, bytes, terminal, ofJob, member, rest⟩ := failure
          exact .inr (.inl ⟨key, bytes, terminal, ofJob, grown.events.subset member, rest⟩)
        · exact .inr (.inr (created.symm ▸ expired))
  | some resumed =>
      have isResumed : state = resumed := lease
      subst isResumed
      rcases goesOn with ⟨-, impossible⟩ | ⟨owner, last, stands, isLast, later, unlaunched, -,
        admitted⟩
      · cases impossible
      · rw [App.workAt] at stands
        rw [stands]
        subst isLast
        exact ⟨.resumed owner last _ later, admitted, unlaunched⟩

theorem safe_proceedWork (absent : start.objects (.work workId) = []) {read : World Submitter β}
    (readValid : app.WorkValid workId start read) (grown : Grows read w)
    {request : CanonicalRequest} {now generation : Nat} {resume : Option WorkAttempt}
    (goesOn : app.GoesOn workId read w now generation resume) (idle : app.Idle workId caller w)
    (begun : caller.2.start ≤ w.clock) :
    Safe (app.submitMachine workId) (app.submitRely workId start) caller
      (OnOk fun outcome current => outcome = none → app.Idle workId caller current)
      (app.proceedWork workId request now generation (read.current (.work workId)) resume) w := by
  refine (safe_precheck _).bindCareful fun _ w1 since1 _ _ => ?_
  have attempted : ∀ w, app.Careful workId start caller (OnOk fun state _ =>
      app.LeaseOf workId request now generation resume state)
      (match resume with
        | some state => .done state
        | none => Program.ofExcept (app.newAttempt workId request now generation)) w := by
    intro w
    cases resume with
    | some state => exact safe_done _ fun _ _ _ => rfl
    | none => exact (safe_ofExcept _).endsOf (fun _ _ _ same => same) fun _ _ _ _ => trivial
  refine (attempted _).bindCareful fun state w2 since2 _ lease => ?_
  have toW2 : Grows w w2 := since1.grows.trans since2.grows
  have leaseOk : ∀ moment, Grows w2 moment → app.WorkValid workId start moment →
      moment.IsAt (.work workId) ((read.current (.work workId)).map VersionedObject.revision) →
      app.Follows workId (start.objects .admission) caller moment.events
        (app.workAt workId moment.events) state ∧
        state.admissionDenied = false ∧ state.launched = false := by
    intro moment since valid isAt
    have stood := works_eq_of_isAt readValid valid (grown.trans (toW2.trans since)) isAt
    exact lease_follows goesOn lease (toW2.trans since) stood
  refine (safe_compareExchange _ _ _ ?_).bindCareful fun swapped w3 since3 _ swaps => ?_
  · intro moment since valid isAt _
    obtain ⟨follows, admitted, -⟩ := leaseOk moment since.grows valid isAt
    refine ⟨valid.write_work _ follows, fun idle => idle.append rfl (by simp) ?_⟩
    intro next owner last sameEvent _ _
    injection sameEvent with _ _ sameBytes
    rw [← app.serde.workBytes_injective sameBytes]
    exact admitted
  · have idleNow := since3.fresh (since2.fresh (since1.fresh idle))
    cases swapped with
    | false => exact safe_done _ fun _ since _ _ => since.fresh idleNow
    | true =>
        obtain ⟨moment, since, valid, isAt, -, after⟩ := swaps rfl
        obtain ⟨-, admitted, unlaunched⟩ := leaseOk moment since.grows valid isAt
        have leased : app.Leased workId caller state w3 := by
          refine ⟨⟨_, after.events, ?_⟩, admitted, unlaunched⟩
          simp [App.workAt, World.write, works_write]
        have begunNow : caller.2.start ≤ w3.clock :=
          begun.trans (toW2.trans since3.grows).clock
        refine (safe_launchAttempt absent leased idleNow begunNow).bindOk fun _ _ _ _ _ => ?_
        exact safe_done _ fun _ _ _ impossible => by cases impossible

/-- A submission goes on only from the record as it was read. -/
theorem careful_decision (absent : start.objects (.work workId) = []) {read : World Submitter β}
    (readValid : app.WorkValid workId start read) (grown : Grows read w)
    (request : CanonicalRequest) (now : Nat) :
    app.Careful workId start caller (OnOk fun decision current => ∀ generation resume,
        decision = .proceed generation resume →
          app.GoesOn workId read current now generation resume)
      (match read.current (.work workId) with
        | none => .done (.proceed 0 none)
        | some object => app.examineWork workId request now object) w := by
  cases present : read.current (.work workId) with
  | none =>
      apply safe_done
      intro _ _ _ generation resume same
      cases same
      exact .inl ⟨readValid.work_absent absent present, rfl⟩
  | some object =>
      refine (careful_examineWork absent readValid grown present request now).endsOf
        ?_ fun _ _ _ _ => trivial
      intro decision current _ decided generation resume same
      subst same
      exact .inr decided

theorem safe_submitLoop (absent : start.objects (.work workId) = []) (request : CanonicalRequest)
    (attempts : Nat) (idle : app.Idle workId caller w) (begun : caller.2.start ≤ w.clock) :
    Safe (app.submitMachine workId) (app.submitRely workId start) caller (OnOk fun _ _ => True)
      (app.submitLoop workId request attempts) w := by
  induction attempts generalizing w with
  | zero => exact safe_fail _
  | succ attempts ih =>
      refine safe_now.bindCareful fun now w1 since1 _ _ => ?_
      refine (safe_failIf _ _).bindCareful fun _ w2 since2 _ _ => ?_
      refine (safe_getVersioned _ _).bindCareful fun current w3 since3 _ found => ?_
      obtain ⟨read, during, isCurrent, -⟩ := found
      subst isCurrent
      have toRead : Grows w w3 := since1.grows.trans (since2.grows.trans since3.grows)
      have idleRead := since3.fresh (since2.fresh (since1.fresh idle))
      refine (careful_decision absent during.holds during.before request now).bindCareful
        fun decision w4 since4 _ goesOn => ?_
      have begunNow : caller.2.start ≤ w4.clock :=
        begun.trans (toRead.trans since4.grows).clock
      cases decision with
      | finished jobId => exact safe_done _ fun _ _ _ => trivial
      | again => exact ih (since4.fresh idleRead) begunNow
      | proceed generation resume =>
          refine (safe_proceedWork absent during.holds (during.before.trans since4.grows)
            (goesOn generation resume rfl) (since4.fresh idleRead) begunNow).bindOk
            fun outcome w5 since5 _ idleAfter => ?_
          cases outcome with
          | some outcome => exact safe_done _ fun _ _ _ => trivial
          | none => exact ih (idleAfter rfl) (begunNow.trans since5.clock)

end Programs

/-! ## Any number of submissions -/

/-- The revisions of the work record are the texts of the history. -/
def App.WorkIs (app : App β) (workId : String) (w : World Submitter β)
    (history : List (Submitter × WorkAttempt)) : Prop :=
  w.objects (.work workId) = history.map fun entry => ⟨entry.1, app.serde.workBytes entry.2⟩

/-- The job ids of different generations differ. -/
def JobIdsDistinct (history : List (Submitter × WorkAttempt)) : Prop :=
  ∀ first ∈ history, ∀ second ∈ history,
    first.2.stored.jobId = second.2.stored.jobId → first.2.generation = second.2.generation

/-- No job that a worker was ever launched for is denied in any revision. -/
def NoneLaunchedDenied (w : World Submitter β) (history : List (Submitter × WorkAttempt)) : Prop :=
  ∀ launcher jobId deadline, Event.launched launcher jobId deadline ∈ w.events →
    ∀ revision ∈ history, revision.2.stored.jobId = jobId → revision.2.admissionDenied = false

/-- Where the generation changes, the attempt before could be replaced at that moment. -/
def App.TakeoversJustified (app : App β) (workId : String) (w : World Submitter β)
    (history : List (Submitter × WorkAttempt)) : Prop :=
  ∀ before last next after, history = before ++ last :: next :: after →
    next.2.generation ≠ last.2.generation →
      ∃ past, past <+: w.events ∧ app.works workId past = before ++ [last] ∧
        app.Replaceable past last.2 next.2

/-- Submissions of one work id in any interleaving: no job is both launched and denied,
generations never decrease, and a takeover is justified. -/
theorem takeover_justified [DecidableEq β] (app : App β) (workId : String)
    (start : World Submitter β) (absent : start.objects (.work workId) = [])
    (unlogged : start.events = [])
    (config : Config (World Submitter β) Invocation (Op β) (Reply β) ServiceError SubmitOutcome)
    (steps : Steps (app.submitMachine workId) ⟨start, []⟩ config) :
    ∃ history, app.WorkIs workId config.world history ∧
      (JobIdsDistinct history → NoneLaunchedDenied config.world history) ∧
      history.Pairwise (fun earlier later => earlier.2.generation ≤ later.2.generation) ∧
      app.TakeoversJustified workId config.world history := by
  have respects : Respects (app.submitMachine workId) (app.submitRely workId start)
      fun _ => OnOk fun _ _ => True := by
    refine ⟨?_, ?_, ?_⟩
    · intro world number invocation program valid idle allowed
      obtain ⟨isStart, isProgram⟩ := allowed
      subst isProgram
      exact safe_submitLoop absent _ 16 idle (le_of_eq isStart)
    · intro caller other world op reply after differ served grows
      exact ⟨grows, served.2.idle_other fun same => differ (congrArg Prod.fst same)⟩
    · intro world after valid drift
      refine ⟨valid.drift drift, fun caller => ⟨drift.grows, fun idle => ?_⟩⟩
      have same : app.Idle workId caller after = app.Idle workId caller world := by
        rw [App.Idle, App.Idle, drift.events]
      exact same.mpr idle
  have initial : app.WorkValid workId start start := by
    refine ⟨fun key _ => by simp [unlogged, writesTo], ?_, by simp [unlogged]⟩
    rw [unlogged]
    exact .nil
  have idle : ∀ caller, app.Idle workId caller start := by
    intro caller
    rw [App.Idle, unlogged]
    refine ⟨by simp [LaunchedBy], ?_⟩
    rintro ⟨before, owner, last, next, occurs, -⟩
    simpa using occurs.mem
  have safe := steps_allSafe respects (allSafe_nil initial idle) steps
  have valid : app.WorkValid workId start config.world := safe.valid
  refine ⟨app.works workId config.world.events, ?_, ?_, ?_, ?_⟩
  · rw [App.WorkIs, valid.logged (.work workId) id, absent, List.nil_append,
      writesTo_work valid.legal]
  · intro distinct launcher jobId deadline launched revision member ofJob
    exact launched_not_denied valid.legal distinct launched member ofJob
  · exact (works_pairwise valid.legal).imp Succeeds.generation_le
  · intro before last next after split moved
    exact generation_justified valid.legal split moved

/-! ### A takeover after expiry -/

def aliceSubmits : Submitter := (0, ⟨10, SmallService.request⟩)

def bobSubmits : Submitter := (1, ⟨4000, SmallService.request⟩)

def submission : Prog SmallService.Text SubmitOutcome :=
  SmallService.app.submitCanonical "work" SmallService.request

def afterAlice : Prog SmallService.Text SubmitOutcome × World Submitter SmallService.Text :=
  runAlone (World.answer aliceSubmits) submission (SmallService.emptyWorld Submitter 10)

/-- Long after Alice's attempt has expired. -/
def beforeBob : World Submitter SmallService.Text := { afterAlice.2 with clock := 4000 }

def afterBob : Prog SmallService.Text SubmitOutcome × World Submitter SmallService.Text :=
  runAlone (World.answer bobSubmits) submission beforeBob

def twoSubmissions : Config (World Submitter SmallService.Text) Invocation (Op SmallService.Text)
    (Reply SmallService.Text) ServiceError SubmitOutcome :=
  ⟨afterBob.2, [⟨aliceSubmits.2, afterAlice.1⟩, ⟨bobSubmits.2, afterBob.1⟩]⟩

theorem serves_submission (caller : Submitter) (w : World Submitter SmallService.Text)
    (op : Op SmallService.Text) (inTime : w.clock ≤ caller.2.start + 900)
    (fits : w.clock ≤ maxU64) :
    (SmallService.app.submitMachine "work").serve caller w op (w.answer caller op).1
      (w.answer caller op).2 := by
  refine ⟨⟨inTime, ?_⟩, World.serves_answer caller w op⟩
  cases op with
  | clock => exact ⟨rfl, fits⟩
  | getVersioned key maxBytes => simp [World.answer]
  | compareExchange key revision value =>
      simp only [World.answer]
      split <;> simp
  | canReleaseReservation jobId launchUntil now => simp [World.answer]
  | _ => trivial

theorem steps_submission (caller : Submitter) (clock : Nat)
    (threads : List (Thread Invocation (Op SmallService.Text) (Reply SmallService.Text)
      ServiceError SubmitOutcome)) (number : caller.1 = threads.length)
    (w : World Submitter SmallService.Text) (isClock : w.clock = clock)
    (inTime : clock ≤ caller.2.start + 900) (fits : clock ≤ maxU64) :
    Steps (SmallService.app.submitMachine "work") ⟨w, threads ++ [⟨caller.2, submission⟩]⟩
      ⟨(runAlone (World.answer caller) submission w).2,
        threads ++ [⟨caller.2, (runAlone (World.answer caller) submission w).1⟩]⟩ := by
  have isCaller : (threads.length, caller.2) = caller := by rw [← number]
  refine steps_runAlone (World.answer caller) (fun w => w.clock = clock) threads ?_ ?_ _ _ isClock
  · intro world op same
    rw [isCaller]
    exact serves_submission caller world op (same ▸ inTime) (same ▸ fits)
  · intro world op same
    exact (World.answer_clock caller world op).trans same

theorem twoSubmissions_steps : Steps (SmallService.app.submitMachine "work")
    ⟨SmallService.emptyWorld Submitter 10, []⟩ twoSubmissions := by
  have first := steps_submission aliceSubmits 10 [] rfl (SmallService.emptyWorld Submitter 10) rfl
    (by decide) (by decide)
  have second := steps_submission bobSubmits 4000 [⟨aliceSubmits.2, afterAlice.1⟩] rfl beforeBob rfl
    (by decide) (by decide)
  have drift : Drift afterAlice.2 beforeBob := drift_later afterAlice.2 4000 (by decide +kernel)
  refine .head (.started _ [] aliceSubmits.2 submission ⟨rfl, rfl⟩) (.trans first ?_)
  refine .head (.drifted afterAlice.2 beforeBob _ drift) ?_
  exact .head (.started beforeBob _ bobSubmits.2 submission ⟨rfl, rfl⟩) second

theorem twoSubmissions_justified :
    (twoSubmissions.world.objects (.work "work")).length = 4 ∧
      ∃ history, SmallService.app.WorkIs "work" twoSubmissions.world history ∧
        (JobIdsDistinct history → NoneLaunchedDenied twoSubmissions.world history) ∧
        history.Pairwise (fun earlier later => earlier.2.generation ≤ later.2.generation) ∧
        SmallService.app.TakeoversJustified "work" twoSubmissions.world history :=
  ⟨by decide +kernel, takeover_justified SmallService.app "work"
    (SmallService.emptyWorld Submitter 10) rfl rfl twoSubmissions twoSubmissions_steps⟩

end Usd8Core.JobApi
