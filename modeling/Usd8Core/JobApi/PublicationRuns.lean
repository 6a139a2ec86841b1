import Usd8Core.JobApi.PublicationLog
import Usd8Core.JobApi.SubmitRuns

/-!
# Publication in any order

Submissions of any work and polls of any job share the store, whatever the clock, the
launcher and the completion verifier reply.  Every request of every invocation keeps the
log of each work legal for its publication.
-/

set_option autoImplicit false

namespace Usd8Core.JobApi

open Usd8Core.Lib.CheckedCall (saturatingAdd)
open Usd8Core.Lib.EventLog
open Usd8Core.Lib.Interleaving

/-- An invocation of the service. -/
inductive Call where
  | submit (workId : String) (request : CanonicalRequest)
  | poll (jobId : String)

inductive Outcome where
  | submitted (outcome : SubmitOutcome)
  | polled (outcome : PollOutcome)

abbrev Client := Caller Call

variable {β : Type}

def App.serveCall [DecidableEq β] (app : App β) : Call → Prog β Outcome
  | .submit workId request => do
      let outcome ← app.submitCanonical workId request
      .done (.submitted outcome)
  | .poll jobId => do
      let outcome ← app.poll jobId
      .done (.polled outcome)

/-- Any invocations at any time; nothing is promised about the replies of the clock, the
launcher and the verifier. -/
def App.publicationMachine [DecidableEq β] (app : App β) :
    Machine (World Client β) Call (Op β) (Reply β) ServiceError Outcome :=
  appMachine (fun caller => caller) (fun _ _ _ _ => True) fun _ call program =>
    program = app.serveCall call

/-! ## Worlds with a legal log -/

structure App.PublicationValid (app : App β) (workId : String) (start w : World Client β) :
    Prop where
  logged : start.Logged w
  legal : Legal (app.Publishes workId start.objects) w.events

section Worlds

variable {app : App β} {workId : String} {start w later : World Client β} {writer : Client}

theorem App.PublicationValid.write (valid : app.PublicationValid workId start w) {key : Key}
    {bytes : β} (right : app.WriteRight workId start.objects w.events key bytes) :
    app.PublicationValid workId start (w.write writer key bytes) :=
  ⟨valid.logged.write writer key bytes, .snoc _ _ valid.legal right⟩

/-- A write to any other object. -/
theorem App.PublicationValid.write_other (valid : app.PublicationValid workId start w) {key : Key}
    (bytes : β) (mutable : ¬ key.Immutable) (notWork : key ≠ .work workId) :
    app.PublicationValid workId start (w.write writer key bytes) := by
  refine valid.write ⟨fun immutable => absurd immutable mutable, fun same => absurd same notWork, ?_⟩
  intro locator isSettlement
  rw [isSettlement] at mutable
  exact absurd trivial mutable

theorem App.PublicationValid.record (valid : app.PublicationValid workId start w)
    (event : Event Client β) (quiet : ∀ key, event.writeTo key = none)
    (allowed : app.Publishes workId start.objects w.events event) :
    app.PublicationValid workId start (w.record event) :=
  ⟨valid.logged.record event quiet, .snoc _ _ valid.legal allowed⟩

theorem App.PublicationValid.drift (valid : app.PublicationValid workId start w)
    (drift : Drift w later) : app.PublicationValid workId start later := by
  refine ⟨valid.logged.drift drift, ?_⟩
  rw [drift.events]
  exact valid.legal

/-- An object in the store has the bytes the log has. -/
theorem App.PublicationValid.bytesAfter_eq (valid : app.PublicationValid workId start w) {key : Key}
    (kept : ¬ key.Expires) :
    bytesAfter start.objects key w.events = (w.current key).map VersionedObject.bytes := by
  rw [bytesAfter, ← valid.logged key kept, World.current]
  cases (w.objects key).getLast? <;> rfl

theorem App.PublicationValid.absent (valid : app.PublicationValid workId start w) {key : Key}
    (kept : ¬ key.Expires) (empty : w.objects key = []) :
    start.objects key ++ writesTo key w.events = [] := by
  rw [← valid.logged key kept]
  exact empty

/-- The record in the store is the last one of the log. -/
theorem App.PublicationValid.current_work (valid : app.PublicationValid workId start w)
    (absent : start.objects (.work workId) = []) :
    (w.current (.work workId)).map VersionedObject.bytes =
      (app.workAt workId w.events).map fun entry => app.serde.workBytes entry.2 := by
  rw [World.current, valid.logged (.work workId) id, absent, List.nil_append,
    writesTo_published valid.legal, List.getLast?_map, App.workAt]
  cases (app.works workId w.events).getLast? <;> rfl

theorem App.PublicationValid.work_found (valid : app.PublicationValid workId start w)
    (absent : start.objects (.work workId) = []) {object : VersionedObject β} {state : WorkAttempt}
    (found : w.current (.work workId) = some object)
    (parsed : app.serde.parseWork object.bytes = some state) :
    ∃ owner, app.workAt workId w.events = some (owner, state) := by
  have current := valid.current_work absent
  rw [found] at current
  cases last : app.workAt workId w.events with
  | none =>
      rw [last] at current
      cases current
  | some entry =>
      rw [last] at current
      have sameBytes : object.bytes = app.serde.workBytes entry.2 := Option.some.inj current
      rw [sameBytes, app.serde.parseWork_workBytes] at parsed
      cases parsed
      exact ⟨entry.1, rfl⟩

end Worlds

/-! ## Harmless requests -/

/-- Requests that have nothing to do with completion. -/
def Op.Harmless : Op β → Prop
  | .compareExchange key _ _ => key = .admission
  | .create key _ => ∃ jobId, key = .request jobId
  | .noteSealed _ => False
  | _ => True

section Harmless

variable {app : App β}

theorem only_orFail {α : Type} (value : Option α) (error : ServiceError) :
    (orFail value error : Prog β α).Only Op.Harmless := by
  cases value <;> trivial

theorem only_retainSlots (now : Nat) (slots : List WorkerReservation) :
    (app.retainSlots now slots).Only Op.Harmless := by
  induction slots with
  | nil => trivial
  | cons slot later ih =>
      refine (only_failIf _ _).bind fun _ => ?_
      refine Program.Only.bind ?_ fun _ => ih.bind fun _ => only_done _
      unfold App.isReleased
      split
      · exact only_done _
      · exact ⟨trivial, fun _ => only_done _⟩

theorem only_reserveLoop (jobId : String) (launchUntil attempts : Nat) :
    (app.reserveLoop jobId launchUntil attempts).Only Op.Harmless := by
  induction attempts with
  | zero => trivial
  | succ attempts ih =>
      refine Program.Only.bind ⟨trivial, fun _ => only_ofExcept _⟩ fun current => ?_
      refine Program.Only.bind ?_ fun ledger => ?_
      · cases current with
        | none => trivial
        | some object => exact only_orFail _ _
      refine (only_failIf _ _).bind fun _ => ?_
      refine Program.Only.bind ⟨trivial, fun _ => only_done _⟩ fun now => ?_
      refine (only_failIf _ _).bind fun _ => ?_
      split
      · split <;> trivial
      · refine (only_retainSlots _ _).bind fun retained => ?_
        refine Program.Only.bind ⟨rfl, fun _ => only_ofExcept _⟩ fun committed => ?_
        split
        · split <;> trivial
        · exact ih

theorem only_verifyCompletion (stored : StoredRequest) (terminal : TerminalEnvelope) :
    (app.verifyCompletion stored terminal).Only Op.Harmless := by
  unfold App.verifyCompletion
  split
  · trivial
  · refine Program.Only.bind ?_ fun _ => (only_ofExcept _).bind fun _ =>
      (only_orFail _ _).bind fun _ => (only_orFail _ _).bind fun _ => only_failIf _ _
    exact (only_failIf _ _).bind fun _ => ⟨trivial, fun _ => only_ofExcept _⟩

theorem only_checkPublished [DecidableEq β] (stored : StoredRequest) (locator : SettlementLocator) (existing : β) :
    (app.checkPublished stored locator existing).Only Op.Harmless :=
  (only_ofExcept _).bind fun _ => (only_failIf _ _).bind fun _ =>
    (only_verifyCompletion _ _).bind fun _ => (only_ofExcept _).bind fun _ => only_failIf _ _

theorem only_completionBytes (jobId : String) :
    (app.completionBytes jobId).Only Op.Harmless := by
  refine Program.Only.bind ⟨trivial, fun _ => only_ofExcept _⟩ fun candidate => ?_
  split
  · trivial
  · exact ⟨trivial, fun _ => only_ofExcept _⟩

theorem only_createRequest [DecidableEq β] (jobId : String) (value : β) :
    (App.createSame (.request jobId) value).Only Op.Harmless := by
  refine Program.Only.bind ⟨⟨jobId, rfl⟩, fun _ => only_ofExcept _⟩ fun outcome => ?_
  cases outcome with
  | created => trivial
  | «exists» existing => exact only_failIf _ _

theorem only_terminalOutcome (key : Key) (bytes : β) (terminal : TerminalEnvelope) :
    (app.terminalOutcome key bytes terminal).Only Op.Harmless := by
  unfold App.terminalOutcome
  dsimp only
  split
  · trivial
  · exact Program.Only.bind ⟨trivial, fun _ => only_ofExcept _⟩ fun _ => only_done _

theorem only_pendingOutcome (jobId : String) : (app.pendingOutcome jobId).Only Op.Harmless :=
  Program.Only.bind ⟨trivial, fun _ => only_ofExcept _⟩ fun _ =>
    (only_orFail _ _).bind fun _ => (only_orFail _ _).bind fun _ => (only_failIf _ _).bind fun _ =>
      Program.Only.bind ⟨trivial, fun _ => only_done _⟩ fun _ => only_done _

theorem only_completedRequest (jobId : String) :
    (app.completedRequest jobId).Only Op.Harmless := by
  refine Program.Only.bind ⟨trivial, fun _ => only_ofExcept _⟩ fun retained => ?_
  refine Program.Only.bind ?_ fun _ => (only_orFail _ _).bind fun _ =>
    (only_failIf _ _).bind fun _ => only_done _
  split
  · trivial
  · exact Program.Only.bind ⟨trivial, fun _ => only_ofExcept _⟩ fun _ => only_orFail _ _

end Harmless

/-! ## Steady programs -/

section Programs

variable [DecidableEq β] {app : App β} {workId : String} {start w : World Client β}
  {caller : Client}

omit [DecidableEq β] in
theorem serves_harmless {current after : World Client β} {op : Op β} {reply : Reply β op}
    (valid : app.PublicationValid workId start current) (harmless : op.Harmless)
    (served : Serves caller current op reply after) :
    app.PublicationValid workId start after := by
  have ledger : ∀ bytes : β,
      app.PublicationValid workId start (current.write caller .admission bytes) :=
    fun bytes => valid.write_other bytes id (by simp)
  have request : ∀ jobId (bytes : β),
      app.PublicationValid workId start (current.write caller (.request jobId) bytes) :=
    fun jobId bytes => valid.write_other bytes id (by simp)
  cases served with
  | exchanged key revision value isAt =>
      cases harmless
      exact ledger value
  | exchangeLost key revision value isAt error =>
      cases harmless
      exact ledger value
  | created key value absent =>
      obtain ⟨jobId, isRequest⟩ := harmless
      subst isRequest
      exact request jobId value
  | createLost key value absent error =>
      obtain ⟨jobId, isRequest⟩ := harmless
      subst isRequest
      exact request jobId value
  | read key maxBytes => exact valid.record _ (fun _ => rfl) trivial
  | launched jobId deadline reply => exact valid.record _ (fun _ => rfl) trivial
  | noted stored => exact harmless.elim
  | _ => exact valid

/-- What a caller relies on: nothing but the history. -/
def App.publicationRely (app : App β) (workId : String) (start : World Client β) :
    Rely (World Client β) Call :=
  relyOn (app.PublicationValid workId start) fun _ _ => True

/-- Safe with respect to the publication of the work. -/
abbrev App.Steady (app : App β) (workId : String) (start : World Client β) (caller : Client)
    {α : Type} (post : Except ServiceError α → World Client β → Prop) (program : Prog β α)
    (w : World Client β) : Prop :=
  Safe app.publicationMachine (app.publicationRely workId start).careful caller post program w

theorem steady_harmless {α : Type} {program : Prog β α} (harmless : program.Only Op.Harmless) :
    app.Steady workId start caller (OnOk fun _ _ => True) program w := by
  refine harmless.safe ?_
  intro current op reply after valid isHarmless served
  exact ⟨serves_harmless valid isHarmless served.2, served.2.grows, fun _ => trivial⟩

/-! ## The record and the evidence -/

/-- A revision after the unfinished one that was read, or the first one.  One that
completes the attempt needs its evidence, and then the record stands completed. -/
theorem steady_exchange (absent : start.objects (.work workId) = []) {key : String}
    {revision : Option Nat} {read : World Client β} (grown : Grows read w) (next : WorkAttempt)
    (isRevision : (read.current (.work key)).map VersionedObject.revision = revision)
    (unfinished : ∀ object state, read.current (.work key) = some object →
      app.serde.parseWork object.bytes = some state → state.completed = false)
    (evidence : next.completed = true → app.Evidence start.objects next.stored w.events) :
    app.Steady workId start caller (OnOk fun swapped current => swapped = true →
        next.completed = true → key = workId → app.SealedFor workId next.stored current.events)
      (compareExchange (.work key) revision (app.serde.workBytes next)) w := by
  subst isRevision
  refine (safe_compareExchange _ _ _ ?_).endsOf ?_ fun _ _ _ _ => trivial
  · intro moment since valid isAt _
    refine ⟨valid.write ⟨fun immutable => immutable.elim, ?_, fun _ same => by cases same⟩,
      fun _ => trivial⟩
    intro same
    injection same with sameKey
    subst sameKey
    refine ⟨next, rfl, ?_, fun completes => (evidence completes).later valid.legal since.grows.events⟩
    intro owner last stands
    have current := valid.current_work absent
    rw [current_eq_of_isAt id (grown.trans since.grows) isAt, stands] at current
    obtain ⟨object, found, sameBytes⟩ := Option.map_eq_some_iff.mp current
    refine unfinished object last found ?_
    rw [sameBytes, app.serde.parseWork_workBytes]
  · intro swapped current validNow swaps isSwapped completes same
    subst same
    obtain ⟨moment, -, -, -, -, after⟩ := swaps isSwapped
    have written : app.SealedFor key next.stored
        (moment.write caller (.work key) (app.serde.workBytes next)).events := by
      refine ⟨caller, next, ?_, completes, rfl⟩
      simp [App.workAt, World.write, works_write]
    exact written.later validNow.legal after.events

/-- The same for the record with the state that was read. -/
theorem steady_exchangeRead (absent : start.objects (.work workId) = []) {key : String}
    {object : VersionedObject β} {state : WorkAttempt} {read : World Client β}
    (grown : Grows read w) (next : WorkAttempt) (found : read.current (.work key) = some object)
    (parsed : app.serde.parseWork object.bytes = some state) (unfinished : state.completed = false)
    (evidence : next.completed = true → app.Evidence start.objects next.stored w.events) :
    app.Steady workId start caller (OnOk fun swapped current => swapped = true →
        next.completed = true → key = workId → app.SealedFor workId next.stored current.events)
      (compareExchange (.work key) (some object.revision) (app.serde.workBytes next)) w := by
  refine steady_exchange absent grown next (by rw [found, Option.map_some]) ?_ evidence
  intro other last isOther isLast
  cases found.symm.trans isOther
  cases parsed.symm.trans isLast
  exact unfinished

/-- Objects that are written once have these bytes from then on. -/
theorem steady_createSame (key : Key) (immutable : key.Immutable)
    (plain : ∀ locator, key ≠ .settlement locator) (value : β) :
    app.Steady workId start caller (OnOk fun _ current =>
        bytesAfter start.objects key current.events = some value) (App.createSame key value) w := by
  refine (safe_create key value ?_).bindOk fun outcome w1 _ validNow created => ?_
  · intro moment since valid empty
    refine ⟨valid.write ⟨fun _ => valid.absent immutable.kept empty, ?_,
      fun locator same => absurd same (plain locator)⟩, fun _ => trivial⟩
    intro same
    subst same
    exact immutable.elim
  · cases outcome with
    | created =>
        obtain ⟨moment, -, -, -, after⟩ := created
        apply safe_done
        intro current since valid
        refine bytesAfter_final valid.legal (after.trans since.grows).events key immutable ?_
        simp [bytesAfter, World.write, writesTo, Event.writeTo, ← List.append_assoc]
    | «exists» existing =>
        obtain ⟨moment, object, during, present, sameBytes⟩ := created
        simp only
        unfold Program.failIf
        split
        · exact safe_fail _
        · rename_i same
          apply safe_done
          intro current since valid
          have older := (during.before.trans since.grows).events
          refine bytesAfter_final valid.legal older key immutable ?_
          rw [during.holds.bytesAfter_eq immutable.kept, present, Option.map_some, sameBytes,
            not_not.mp same]

theorem steady_retainCompletion (stored : StoredRequest) (bytes : β) :
    app.Steady workId start caller (OnOk fun _ current =>
        bytesAfter start.objects (.completion stored.jobId) current.events = some bytes ∧
          bytesAfter start.objects (.completionRequest stored.jobId) current.events =
            some (app.serde.requestBytes stored))
      (app.retainCompletion stored bytes) w := by
  refine (steady_createSame (.completion _) trivial (by simp) bytes).bindOk
    fun _ w1 _ _ retained => ?_
  refine (steady_createSame (.completionRequest _) trivial (by simp) _).grown.weaken ?_
  intro result current valid ended
  cases result with
  | error error => trivial
  | ok done =>
      obtain ⟨since, request⟩ := ended
      exact ⟨bytesAfter_final valid.legal since.grows.events (.completion _) trivial retained,
        request⟩

/-! ## Publication -/

/-- What the caller of a publication has retained. -/
structure App.Retained (app : App β) (start : World Client β) (stored : StoredRequest) (bytes : β)
    (terminal : TerminalEnvelope) (log : List (Event Client β)) : Prop where
  result : bytesAfter start.objects (.completion stored.jobId) log = some bytes
  request : bytesAfter start.objects (.completionRequest stored.jobId) log =
    some (app.serde.requestBytes stored)
  parsed : app.parseTerminal bytes (some stored.jobId) = .ok terminal

omit [DecidableEq β] in
theorem App.Retained.later {stored : StoredRequest} {bytes : β} {terminal : TerminalEnvelope}
    {past log : List (Event Client β)} (retained : app.Retained start stored bytes terminal past)
    (legal : Legal (app.Publishes workId start.objects) log) (older : past <+: log) :
    app.Retained start stored bytes terminal log :=
  ⟨bytesAfter_final legal older (.completion _) trivial retained.result,
    bytesAfter_final legal older (.completionRequest _) trivial retained.request,
    retained.parsed⟩

omit [DecidableEq β] in
theorem App.Retained.evidence {stored : StoredRequest} {bytes : β} {terminal : TerminalEnvelope}
    {log : List (Event Client β)} (retained : app.Retained start stored bytes terminal log)
    (completed : terminal.status = .completed) : app.Evidence start.objects stored log :=
  ⟨⟨bytes, terminal, retained.result, retained.parsed, completed⟩, retained.request⟩

theorem completed_of_located {terminal : TerminalEnvelope} {registry : String}
    {locator : SettlementLocator}
    (located : settlementLocatorFromTerminal terminal registry = .ok (some locator)) :
    terminal.status = .completed := by
  by_contra failed
  rw [settlementLocatorFromTerminal, if_pos failed] at located
  cases located

theorem steady_sealLoop (absent : start.objects (.work workId) = []) (key : String)
    {stored : StoredRequest} {bytes : β} {terminal : TerminalEnvelope} (attempts : Nat)
    (retained : app.Retained start stored bytes terminal w.events)
    (completed : terminal.status = .completed) :
    app.Steady workId start caller (OnOk fun isSealed current => isSealed = true →
        key = workId → app.SealedFor workId stored current.events)
      (app.sealLoop key stored attempts) w := by
  induction attempts generalizing w with
  | zero => exact safe_fail _
  | succ attempts ih =>
      refine (safe_getVersioned _ _).bindOk fun current w1 since1 valid1 read => ?_
      obtain ⟨moment, during, found, -⟩ := read
      cases current with
      | none => exact safe_done _ fun _ _ _ impossible => by cases impossible
      | some object =>
          refine (safe_orFail _ _).bindOk fun state w2 since2 valid2 parsed => ?_
          split
          · exact safe_done _ fun _ _ _ impossible => by cases impossible
          · rename_i same
            have isStored : state.stored = stored := not_not.mp same
            split
            · rename_i finished
              apply safe_done
              intro current since valid _ sameKey
              subst sameKey
              obtain ⟨owner, stands⟩ := during.holds.work_found absent found parsed
              have older := (during.before.trans (since2.grows.trans since.grows)).events
              exact App.SealedFor.later ⟨owner, state, stands, finished, isStored⟩ valid.legal older
            · rename_i unfinished
              have toW2 := since1.grows.trans since2.grows
              have retainedNow := retained.later valid2.legal toW2.events
              refine (steady_exchangeRead absent (during.before.trans since2.grows) _ found
                parsed (by simpa using unfinished) ?_).bindOk fun swapped w3 since3 valid3 swaps => ?_
              · intro _
                rw [isStored]
                exact retainedNow.evidence completed
              · cases swapped with
                | true =>
                    apply safe_done
                    intro current since valid _ sameKey
                    have isSealed := swaps rfl rfl sameKey
                    rw [isStored] at isSealed
                    exact isSealed.later valid.legal since.grows.events
                | false => exact ih (retainedNow.later valid3.legal since3.grows.events)

theorem steady_sealSettlementCompletion (absent : start.objects (.work workId) = [])
    {stored : StoredRequest} {bytes : β} {terminal : TerminalEnvelope}
    (retained : app.Retained start stored bytes terminal w.events)
    (completed : terminal.status = .completed) :
    app.Steady workId start caller (OnOk fun isSealed current => isSealed = true →
        Event.sealed stored ∈ current.events)
      (app.sealSettlementCompletion stored) w := by
  refine (safe_ofExcept _).bindOk fun key w1 since1 valid1 ofStored => ?_
  have retainedNow := retained.later valid1.legal since1.grows.events
  refine (steady_sealLoop absent key 16 retainedNow completed).bindOk
    fun isSealed w2 since2 valid2 right => ?_
  cases isSealed with
  | false => exact safe_done _ fun _ _ _ impossible => by cases impossible
  | true =>
      refine (safe_noteSealed stored ?_).bindOk fun _ w3 _ _ noted => ?_
      · intro moment since valid
        refine ⟨valid.record _ (fun _ => rfl) ?_, fun _ => trivial⟩
        intro ofWork
        have sameKey : key = workId := Except.ok.inj (ofStored.symm.trans ofWork)
        exact (right rfl sameKey).later valid.legal since.grows.events
      · exact safe_done _ fun _ since _ _ => since.grows.events.subset noted

theorem steady_publishSettlement (absent : start.objects (.work workId) = [])
    {stored : StoredRequest} {bytes : β} {terminal : TerminalEnvelope}
    (retained : app.Retained start stored bytes terminal w.events) :
    app.Steady workId start caller (OnOk fun _ _ => True)
      (app.publishSettlement stored bytes terminal) w := by
  refine (safe_ofExcept _).bindOk fun found w1 since1 valid1 located => ?_
  cases found with
  | none => exact safe_done _ fun _ _ _ => trivial
  | some locator =>
      have retained1 := retained.later valid1.legal since1.grows.events
      refine (safe_failIf _ _).bindOk fun _ w2 since2 valid2 passes => ?_
      have retained2 := retained1.later valid2.legal since2.grows.events
      have requested : App.RequestMatches stored.request locator := by
        by_contra mismatch
        exact passes (.inr (.inr (.inr mismatch)))
      refine (steady_sealSettlementCompletion absent retained2 (completed_of_located located)).bindOk
        fun isSealed w3 since3 valid3 noted => ?_
      cases isSealed with
      | false => exact safe_done _ fun _ _ _ => trivial
      | true =>
          have retained3 := retained2.later valid3.legal since3.grows.events
          refine (safe_create (.settlement locator) bytes ?_).bindOk fun outcome _ _ _ _ => ?_
          · intro moment since valid empty
            have retainedNow := retained3.later valid.legal since.grows.events
            refine ⟨valid.write ⟨fun _ => valid.absent id empty, (fun same => by cases same), ?_⟩,
              fun _ => trivial⟩
            intro other same
            injection same with sameLocator
            subst sameLocator
            exact ⟨stored, terminal, since.grows.events.subset (noted rfl), requested,
              retained.parsed, located, retainedNow.result⟩
          · cases outcome with
            | created => exact safe_done _ fun _ _ _ => trivial
            | «exists» existing => exact steady_harmless (only_checkPublished _ _ _)

/-! ## Submission -/

/-- An attempt that is not completed is verified only with a completed result. -/
theorem steady_judgeCandidate (state : WorkAttempt) (terminal : Option TerminalEnvelope)
    (invalid : Bool) :
    app.Steady workId start caller (OnOk fun verdict _ =>
        (verdict.1 = false → state.completed = false) ∧
          (verdict.1 = true → state.completed = false →
            ∀ candidate ∈ terminal, candidate.status = .completed))
      (app.judgeCandidate state terminal invalid) w := by
  unfold App.judgeCandidate
  split
  · rename_i completed
    refine safe_done _ fun _ _ _ => ⟨?_, ?_⟩
    · intro impossible
      cases impossible
    · intro _ unfinished
      rw [completed] at unfinished
      cases unfinished
  · rename_i unfinished
    have isOpen : state.completed = false := by simpa using unfinished
    cases filtered : terminal.filter fun t => t.status == .completed with
    | none => exact safe_done _ fun _ _ _ => ⟨fun _ => isOpen, (fun impossible => by cases impossible)⟩
    | some candidate =>
        have completed : ∀ other ∈ terminal, other.status = .completed := by
          intro other isOther
          obtain ⟨isCandidate, status⟩ := Option.filter_eq_some_iff.mp filtered
          cases isCandidate.symm.trans isOther
          simpa using status
        refine (safe_verifyCompletion app _ _).attempt.bindOk fun verdict _ _ _ _ => ?_
        cases verdict with
        | ok done => exact safe_done _ fun _ _ _ => ⟨fun _ => isOpen, fun _ _ => completed⟩
        | error error =>
            cases error with
            | invalidStoredResult =>
                exact safe_done _ fun _ _ _ => ⟨fun _ => isOpen, fun _ _ => completed⟩
            | _ => exact safe_fail _

theorem steady_finishWork (absent : start.objects (.work workId) = []) {key : String}
    {read : World Client β} (grown : Grows read w) {object : VersionedObject β}
    {state : WorkAttempt} (found : read.current (.work key) = some object)
    (parsed : app.serde.parseWork object.bytes = some state)
    {terminal : Option TerminalEnvelope} {candidate : Except ServiceError (Option β)}
    (isParsed : ∀ final ∈ terminal, ∃ bytes, candidate = .ok (some bytes) ∧
      app.parseTerminal bytes (some state.stored.jobId) = .ok final)
    (verified : state.completed = false → ∀ final ∈ terminal, final.status = .completed) :
    app.Steady workId start caller (OnOk fun decision _ => ∀ generation resume,
        decision ≠ .proceed generation resume)
      (app.finishWork key state object.revision terminal candidate) w := by
  refine (safe_orFail _ _).bindOk fun final w1 since1 _ isFinal => ?_
  obtain ⟨bytes, isBytes, parses⟩ := isParsed final isFinal
  subst isBytes
  refine (safe_verifyCompletion app _ _).bindOk fun _ w2 since2 _ _ => ?_
  refine (safe_ofExcept _).bindOk fun given w3 since3 _ isGiven => ?_
  cases isGiven
  refine (safe_orFail _ _).bindOk fun taken w4 since4 _ isTaken => ?_
  cases isTaken
  refine (steady_retainCompletion _ _).bindOk fun _ w5 since5 valid5 evidence => ?_
  have retained : app.Retained start state.stored bytes final w5.events :=
    ⟨evidence.1, evidence.2, parses⟩
  have finished : ∀ later, Grows w5 later → app.PublicationValid workId start later →
      app.Steady workId start caller (OnOk fun decision _ =>
        ∀ generation resume, decision ≠ App.Decision.proceed generation resume) (do
          app.publishSettlement state.stored bytes final
          .done (App.Decision.finished state.stored.jobId)) later := by
    intro later since valid
    have retainedNow := retained.later valid.legal since.events
    refine (steady_publishSettlement absent retainedNow).bindOk fun _ _ _ _ _ => ?_
    exact safe_done _ fun _ _ _ _ _ impossible => by cases impossible
  split
  · exact finished w5 (.refl _) valid5
  · rename_i unfinished
    have isOpen : state.completed = false := by simpa using unfinished
    have toW5 : Grows read w5 := grown.trans (since1.grows.trans (since2.grows.trans
      (since3.grows.trans (since4.grows.trans since5.grows))))
    refine (steady_exchangeRead absent toW5 { state with completed := true } found
      parsed isOpen
      fun _ => retained.evidence (verified isOpen final isFinal)).bindOk
        fun swapped w6 since6 valid6 _ => ?_
    cases swapped with
    | true => exact finished w6 since6.grows valid6
    | false => exact safe_done _ fun _ _ _ _ _ impossible => by cases impossible

/-- The decision to go on with an attempt that is not completed. -/
def App.Unfinished (app : App β) (key : String) (read : World Client β)
    (resume : Option WorkAttempt) : Prop :=
  (∀ object state, read.current (.work key) = some object →
    app.serde.parseWork object.bytes = some state → state.completed = false) ∧
    ∀ resumed ∈ resume, resumed.completed = false

theorem steady_continueWork (now : Nat) (state : WorkAttempt) (hasTerminal invalid : Bool)
    (unfinished : state.completed = false) :
    app.Steady workId start caller (OnOk fun decision _ => ∀ generation resume,
        decision = .proceed generation resume → ∀ resumed ∈ resume, resumed.completed = false)
      (App.continueWork now state hasTerminal invalid) w := by
  unfold App.continueWork
  split
  · refine (safe_failIf _ _).bindOk fun _ _ _ _ _ => ?_
    apply safe_done
    intro _ _ _ generation resume same
    cases same
    simp
  · split
    · apply safe_done
      intro _ _ _ generation resume same
      cases same
      intro resumed isResumed
      cases isResumed
      exact unfinished
    · exact safe_done _ fun _ _ _ _ _ impossible => by cases impossible

theorem steady_examineWork (absent : start.objects (.work workId) = []) {key : String}
    {read : World Client β} (grown : Grows read w) {object : VersionedObject β}
    (found : read.current (.work key) = some object) (request : CanonicalRequest) (now : Nat) :
    app.Steady workId start caller (OnOk fun decision _ => ∀ generation resume,
        decision = .proceed generation resume → app.Unfinished key read resume)
      (app.examineWork key request now object) w := by
  refine (safe_orFail _ _).bindOk fun state w1 since1 _ parsed => ?_
  refine (safe_failIf _ _).bindOk fun _ w2 since2 _ _ => ?_
  refine (safe_failIf _ _).bindOk fun _ w3 since3 _ _ => ?_
  refine (steady_harmless (only_completionBytes _)).attempt.bindOk
    fun candidate w4 since4 _ _ => ?_
  refine (safe_ofExcept _).bindOk fun parsedCandidate w5 since5 _ isParsed => ?_
  obtain ⟨terminal, invalid⟩ := parsedCandidate
  refine (steady_judgeCandidate _ _ _).bindOk fun verdict w6 since6 _ judged => ?_
  obtain ⟨verified, invalidNow⟩ := verdict
  have toW6 : Grows read w6 := grown.trans (since1.grows.trans (since2.grows.trans
    (since3.grows.trans (since4.grows.trans (since5.grows.trans since6.grows)))))
  cases verified with
  | true =>
      refine (steady_finishWork absent toW6 found parsed ?_ (judged.2 rfl)).endsOf ?_
        fun _ _ _ _ => trivial
      · intro final isFinal
        cases isFinal
        exact parseCandidate_ok isParsed
      · intro decision _ _ ended generation resume same
        exact absurd same (ended generation resume)
  | false =>
      have unfinished := judged.1 rfl
      refine (steady_continueWork now state terminal.isSome invalidNow unfinished).endsOf ?_
        fun _ _ _ _ => trivial
      intro decision _ _ resumes generation resume same
      refine ⟨?_, resumes generation resume same⟩
      intro other last isOther isLast
      cases found.symm.trans isOther
      cases parsed.symm.trans isLast
      exact unfinished

/-- The denial is recorded on the revision that was read. -/
theorem steady_reserveOrDeny (absent : start.objects (.work workId) = []) {key : String}
    {read : World Client β} (grown : Grows read w) {object : VersionedObject β}
    {state : WorkAttempt} (found : read.current (.work key) = some object)
    (parsed : app.serde.parseWork object.bytes = some state) (unfinished : state.completed = false) :
    app.Steady workId start caller (OnOk fun _ _ => True)
      (app.reserveOrDeny key state object.revision) w := by
  refine (steady_harmless (only_reserveLoop _ _ _)).attempt.bindOk
    fun reserved w1 since1 _ _ => ?_
  cases reserved with
  | ok done => exact safe_done _ fun _ _ _ => trivial
  | error error =>
      simp only
      split
      · refine (steady_exchangeRead absent (grown.trans since1.grows)
          { state with admissionDenied := true } found parsed unfinished ?_).bindOk
            fun _ _ _ _ _ => safe_fail _
        intro completed
        rw [unfinished] at completed
        cases completed
      · exact safe_fail _

theorem steady_launchAttempt (absent : start.objects (.work workId) = []) {key : String}
    {state : WorkAttempt} (unfinished : state.completed = false) :
    app.Steady workId start caller (OnOk fun _ _ => True)
      (app.launchAttempt key state (app.serde.workBytes state)) w := by
  refine (safe_failIf _ _).bindOk fun _ w1 since1 _ _ => ?_
  refine (steady_harmless (only_createRequest _ _)).bindOk fun _ w2 since2 _ _ => ?_
  refine (safe_getVersioned _ _).bindOk fun owned w3 since3 _ read => ?_
  obtain ⟨atRead, duringRead, found, -⟩ := read
  cases owned with
  | none => exact safe_done _ fun _ _ _ => trivial
  | some owned =>
      simp only
      split
      · exact safe_done _ fun _ _ _ => trivial
      · rename_i sameBytes
        have parsed : app.serde.parseWork owned.bytes = some state := by
          rw [not_not.mp sameBytes, app.serde.parseWork_workBytes]
        refine safe_now.bindOk fun now w4 since4 _ _ => ?_
        split
        · have fromRead : Grows atRead w4 := duringRead.before.trans since4.grows
          refine (steady_reserveOrDeny absent fromRead found parsed unfinished).bindOk
            fun _ w5 since5 _ _ => ?_
          refine (safe_getVersioned _ _).bindOk fun fresh w6 since6 _ _ => ?_
          refine safe_now.bindOk fun nowAgain w7 since7 _ _ => ?_
          split
          · exact safe_done _ fun _ _ _ => trivial
          · refine Safe.bindOk (steady_harmless ⟨trivial, fun _ => only_ofExcept _⟩)
              fun _ w8 since8 _ _ => ?_
            have toW8 : Grows atRead w8 := fromRead.trans (since5.grows.trans
              (since6.grows.trans (since7.grows.trans since8.grows)))
            refine (steady_exchangeRead absent toW8 { state with launched := true } found parsed
              unfinished ?_).bindOk fun _ _ _ _ _ => safe_done _ fun _ _ _ => trivial
            intro completed
            rw [unfinished] at completed
            cases completed
        · exact safe_done _ fun _ _ _ => trivial

omit [DecidableEq β] in
theorem newAttempt_unfinished {request : CanonicalRequest} {now generation : Nat}
    {state : WorkAttempt}
    (attempted : app.newAttempt workId request now generation = .ok state) :
    state.completed = false := by
  unfold App.newAttempt at attempted
  cases derived : deriveJobId app.crypto app.jobSecret
      (workId ++ ":" ++ toString generation) request with
  | error error =>
      rw [derived] at attempted
      cases attempted
  | ok jobId =>
      rw [derived] at attempted
      cases attempted
      rfl

/-- The lease of an attempt that is not completed, and what is done under it. -/
theorem steady_lease (absent : start.objects (.work workId) = []) {key : String}
    {read : World Client β} (grown : Grows read w) {state : WorkAttempt}
    (unfinished : ∀ object last, read.current (.work key) = some object →
      app.serde.parseWork object.bytes = some last → last.completed = false)
    (isOpen : state.completed = false) :
    app.Steady workId start caller (OnOk fun _ _ => True) (do
      let swapped ← compareExchange (.work key)
        ((read.current (.work key)).map VersionedObject.revision) (app.serde.workBytes state)
      if swapped then do
        app.launchAttempt key state (app.serde.workBytes state)
        .done (some (SubmitOutcome.mk true state.stored.jobId))
      else .done none) w := by
  refine (steady_exchange absent grown state rfl unfinished ?_).bindOk fun swapped w1 since1 _ _ => ?_
  · intro completed
    rw [isOpen] at completed
    cases completed
  · split
    · refine (steady_launchAttempt absent isOpen).bindOk fun _ _ _ _ _ => ?_
      exact safe_done _ fun _ _ _ => trivial
    · exact safe_done _ fun _ _ _ => trivial

theorem steady_proceedWork (absent : start.objects (.work workId) = []) {key : String}
    {read : World Client β} (grown : Grows read w) (request : CanonicalRequest)
    (now generation : Nat) {resume : Option WorkAttempt} (goesOn : app.Unfinished key read resume) :
    app.Steady workId start caller (OnOk fun _ _ => True)
      (app.proceedWork key request now generation (read.current (.work key)) resume) w := by
  refine Safe.bindOk (steady_harmless ⟨trivial, fun _ => only_ofExcept _⟩) fun _ w1 since1 _ _ => ?_
  have toW1 := grown.trans since1.grows
  cases resume with
  | some state => exact steady_lease absent toW1 goesOn.1 (goesOn.2 state rfl)
  | none =>
      refine (safe_ofExcept _).bindOk fun state w2 since2 _ attempted => ?_
      exact steady_lease absent (toW1.trans since2.grows) goesOn.1 (newAttempt_unfinished attempted)

/-- The decision on the record as it was read. -/
theorem steady_decision (absent : start.objects (.work workId) = []) {key : String}
    {read : World Client β} (grown : Grows read w) (request : CanonicalRequest) (now : Nat) :
    app.Steady workId start caller (OnOk fun decision _ => ∀ generation resume,
        decision = .proceed generation resume → app.Unfinished key read resume)
      (match read.current (.work key) with
        | none => .done (.proceed 0 none)
        | some object => app.examineWork key request now object) w := by
  cases present : read.current (.work key) with
  | none =>
      apply safe_done
      intro _ _ _ generation resume same
      cases same
      refine ⟨fun object state found => ?_, by simp⟩
      rw [present] at found
      cases found
  | some object => exact steady_examineWork absent grown present request now

theorem steady_submitLoop (absent : start.objects (.work workId) = []) (key : String)
    (request : CanonicalRequest) (attempts : Nat) :
    app.Steady workId start caller (OnOk fun _ _ => True)
      (app.submitLoop key request attempts) w := by
  induction attempts generalizing w with
  | zero => exact safe_fail _
  | succ attempts ih =>
      refine safe_now.bindOk fun now w1 _ _ _ => ?_
      refine (safe_failIf _ _).bindOk fun _ w2 _ _ _ => ?_
      refine (safe_getVersioned _ _).bindOk fun current w3 _ _ found => ?_
      obtain ⟨read, during, isCurrent, -⟩ := found
      subst isCurrent
      refine (steady_decision absent during.before request now).bindOk
        fun decision w4 since4 _ goesOn => ?_
      cases decision with
      | finished jobId => exact safe_done _ fun _ _ _ => trivial
      | again => exact ih
      | proceed generation resume =>
          refine (steady_proceedWork absent (during.before.trans since4.grows) request now generation
            (goesOn generation resume rfl)).bindOk fun outcome _ _ _ _ => ?_
          cases outcome with
          | some outcome => exact safe_done _ fun _ _ _ => trivial
          | none => exact ih

/-! ## Polling -/

theorem steady_completedRequest (jobId : String) :
    app.Steady workId start caller (OnOk fun stored _ => stored.jobId = jobId)
      (app.completedRequest jobId) w := by
  refine Safe.bindOk (steady_harmless ⟨trivial, fun _ => only_ofExcept _⟩)
    fun retained w1 _ _ _ => ?_
  have asked : ∀ w, app.Steady workId start caller (OnOk fun _ _ => True) (do
      let found ← get (.request jobId) maxStoredRequestBytes
      orFail found .invalidStoredResult) w := fun w =>
    steady_harmless (Program.Only.bind ⟨trivial, fun _ => only_ofExcept _⟩ fun _ => only_orFail _ _)
  have parsed : ∀ w (bytes : β), app.Steady workId start caller
      (OnOk fun stored _ => stored.jobId = jobId) (do
        let stored ← orFail (app.serde.parseRequest bytes) .invalidStoredResult
        Program.failIf (stored.jobId ≠ jobId ∨
          storedRequestIsLive app.crypto stored stored.createdAt = false) .invalidStoredResult
        .done stored) w := by
    intro w bytes
    refine (safe_orFail _ _).bindOk fun stored _ _ _ _ => ?_
    refine (safe_failIf _ _).bindOk fun _ _ _ _ passes => ?_
    exact safe_done _ fun _ _ _ => not_not.mp (not_or.mp passes).1
  cases retained with
  | some bytes => exact parsed _ bytes
  | none => exact (asked _).bindOk fun bytes _ _ _ _ => parsed _ bytes

theorem steady_poll (absent : start.objects (.work workId) = []) (jobId : String) :
    app.Steady workId start caller (OnOk fun _ _ => True) (app.poll jobId) w := by
  refine (safe_failIf _ _).bindOk fun _ w1 _ _ _ => ?_
  refine (steady_harmless (only_completionBytes _)).bindOk fun candidate w2 _ _ _ => ?_
  cases candidate with
  | none => exact steady_harmless (only_pendingOutcome _)
  | some bytes =>
      refine (safe_ofExcept _).bindOk fun terminal w3 _ _ parsed => ?_
      split
      · refine (steady_completedRequest _).bindOk fun stored w4 _ _ ofJob => ?_
        subst ofJob
        refine (safe_verifyCompletion app _ _).bindOk fun _ w5 _ _ _ => ?_
        refine (steady_retainCompletion _ _).bindOk fun _ w6 _ _ evidence => ?_
        have retained : app.Retained start stored bytes terminal w6.events :=
          ⟨evidence.1, evidence.2, parsed⟩
        refine (steady_publishSettlement absent retained).bindOk fun _ _ _ _ _ => ?_
        exact steady_harmless (only_terminalOutcome _ _ _)
      · exact steady_harmless (only_terminalOutcome _ _ _)

theorem steady_serveCall (absent : start.objects (.work workId) = []) (call : Call) :
    app.Steady workId start caller (OnOk fun _ _ => True) (app.serveCall call) w := by
  cases call with
  | submit key request =>
      refine (steady_submitLoop absent key request 16).bindOk fun _ _ _ _ _ => ?_
      exact safe_done _ fun _ _ _ => trivial
  | poll jobId =>
      refine (steady_poll absent jobId).bindOk fun _ _ _ _ _ => ?_
      exact safe_done _ fun _ _ _ => trivial

end Programs

end Usd8Core.JobApi
