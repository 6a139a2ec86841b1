import Usd8Core.JobApi.PublicationRuns

/-!
# One final publication of a work

Over any interleaving of submissions and polls the record of a work is final once it is
completed, at most one attempt passes the seal, and at most one settlement is created,
with the bytes that are retained for that attempt.
-/

set_option autoImplicit false

namespace Usd8Core.JobApi

open Usd8Core.Lib.EventLog
open Usd8Core.Lib.Interleaving

variable {B β : Type}

/-! ## What a history has to be -/

/-- The revisions of the work record are the texts of the history. -/
def App.RecordIs (app : App β) (workId : String) (w : World B β)
    (history : List (B × WorkAttempt)) : Prop :=
  w.objects (.work workId) = history.map fun entry => ⟨entry.1, app.serde.workBytes entry.2⟩

/-- No revision follows a completed one. -/
def CompletedIsFinal (history : List (B × WorkAttempt)) : Prop :=
  ∀ before revision after, history = before ++ revision :: after →
    revision.2.completed = true → after = []

/-- Whatever passes the seal for the work is the attempt that the last revision completes,
so no attempt that was replaced does. -/
def App.SealsLastOnly (app : App β) (workId : String) (w : World B β)
    (history : List (B × WorkAttempt)) : Prop :=
  ∀ stored, Event.sealed stored ∈ w.events →
    canonicalWorkId app.crypto stored.request app.defiInsurance = .ok workId →
      ∃ writer last, history.getLast? = some (writer, last) ∧ last.completed = true ∧
        last.stored = stored

/-- Whatever is published for the request is the retained result of the attempt that the
last revision completes. -/
def App.PublishesRetained (app : App β) (request : CanonicalRequest) (w : World B β)
    (history : List (B × WorkAttempt)) : Prop :=
  ∀ publication ∈ publications request w.events, ∃ writer last terminal,
    history.getLast? = some (writer, last) ∧ last.completed = true ∧ last.stored.request = request ∧
      (w.current (.completion last.stored.jobId)).map VersionedObject.bytes = some publication.2 ∧
      app.parseTerminal publication.2 (some last.stored.jobId) = .ok terminal ∧
      settlementLocatorFromTerminal terminal app.registry = .ok (some publication.1)

/-! ## Every interleaving -/

section Runs

variable [DecidableEq β] {app : App β} {workId : String} {start : World Client β}
  {config : Config (World Client β) Call (Op β) (Reply β) ServiceError Outcome}

theorem publicationValid_of_steps (absent : start.objects (.work workId) = [])
    (unlogged : start.events = []) (steps : Steps app.publicationMachine ⟨start, []⟩ config) :
    app.PublicationValid workId start config.world := by
  have respects : Respects app.publicationMachine (app.publicationRely workId start)
      fun _ => OnOk fun _ _ => True := by
    refine ⟨?_, ?_, ?_⟩
    · intro world number call program _ _ isProgram
      have same : program = app.serveCall call := isProgram
      subst same
      exact (steady_serveCall absent call).loosen (Rely.careful_refines _)
    · intro caller other world op reply after _ _ grows
      exact ⟨grows, fun _ => trivial⟩
    · intro world after valid drift
      exact ⟨valid.drift drift, fun _ => ⟨drift.grows, fun _ => trivial⟩⟩
  have initial : app.PublicationValid workId start start := by
    refine ⟨fun key _ => by simp [unlogged, writesTo], ?_⟩
    rw [unlogged]
    exact .nil
  exact (steps_allSafe respects (allSafe_nil initial fun _ => trivial) steps).valid

end Runs

/-- Publication is single and final, over any interleaving of submissions and polls and
whatever the verifier answers. -/
theorem publication_single_final [DecidableEq β] (app : App β) (request : CanonicalRequest)
    (workId : String)
    (ofWork : canonicalWorkId app.crypto request app.defiInsurance = .ok workId)
    (start : World Client β) (absent : start.objects (.work workId) = [])
    (unlogged : start.events = [])
    (config : Config (World Client β) Call (Op β) (Reply β) ServiceError Outcome)
    (steps : Steps app.publicationMachine ⟨start, []⟩ config) :
    ∃ history, app.RecordIs workId config.world history ∧ CompletedIsFinal history ∧
      app.SealsLastOnly workId config.world history ∧
      (publications request config.world.events).length ≤ 1 ∧
      app.PublishesRetained request config.world history := by
  have valid := publicationValid_of_steps absent unlogged steps
  refine ⟨app.works workId config.world.events, ?_, ?_, ?_, ?_, ?_⟩
  · rw [App.RecordIs, valid.logged (.work workId) id, absent, List.nil_append,
      writesTo_published valid.legal]
  · intro before revision after split completed
    exact completed_last valid.legal split completed
  · intro stored noted ofStored
    exact sealed_stands valid.legal noted ofStored
  · exact publications_length_le valid.legal ofWork
  · rintro ⟨locator, bytes⟩ published
    obtain ⟨event, member, isPublication⟩ := List.mem_filterMap.mp published
    obtain ⟨writer, isWrite, matching⟩ := publication_eq_some_iff.mp isPublication
    subst isWrite
    obtain ⟨stored, terminal, ofRequest, right⟩ := published_right valid.legal member matching
    obtain ⟨owner, last, stands, completed, isStored⟩ :=
      sealed_stands valid.legal right.noted (ofRequest ▸ ofWork)
    subst isStored
    refine ⟨owner, last, terminal, stands, completed, ofRequest, ?_, right.parsed, right.located⟩
    rw [← valid.bytesAfter_eq id]
    exact right.retained

/-! ### A submission, a worker and a poll -/

namespace SmallPublication

open SmallService

def workId : String :=
  ((canonicalWorkId crypto request defiInsurance).toOption).getD ""

def alice : Client := (0, .submit workId request)

def afterSubmit : Prog Text Outcome × World Client Text :=
  runAlone (World.answer alice) (app.serveCall alice.2) (emptyWorld Client 10)

def jobId : String :=
  match afterSubmit.1 with
  | .done (.submitted outcome) => outcome.jobId
  | _ => ""

/-- The worker has left its result. -/
def afterWork : World Client Text :=
  { afterSubmit.2 with
    objects := Function.update afterSubmit.2.objects (.terminal jobId)
      [⟨alice, .terminal jobId .completed⟩] }

def bob : Client := (1, .poll jobId)

def afterPoll : Prog Text Outcome × World Client Text :=
  runAlone (World.answer bob) (app.serveCall bob.2) afterWork

def config : Config (World Client Text) Call (Op Text) (Reply Text) ServiceError Outcome :=
  ⟨afterPoll.2, [⟨alice.2, afterSubmit.1⟩, ⟨bob.2, afterPoll.1⟩]⟩

theorem steps_call (caller : Client)
    (threads : List (Thread Call (Op Text) (Reply Text) ServiceError Outcome))
    (number : caller.1 = threads.length) (w : World Client Text) :
    Steps app.publicationMachine ⟨w, threads⟩
      ⟨(runAlone (World.answer caller) (app.serveCall caller.2) w).2, threads ++
        [⟨caller.2, (runAlone (World.answer caller) (app.serveCall caller.2) w).1⟩]⟩ := by
  have isCaller : (threads.length, caller.2) = caller := by rw [← number]
  refine .head (.started w threads caller.2 (app.serveCall caller.2) rfl) ?_
  refine steps_runAlone (World.answer caller) (fun _ => True) threads ?_ (fun _ _ _ => trivial) _ w
    trivial
  intro world op _
  rw [isCaller]
  exact ⟨trivial, World.serves_answer caller world op⟩

theorem steps_config : Steps app.publicationMachine ⟨emptyWorld Client 10, []⟩ config := by
  have drift : Drift afterSubmit.2 afterWork := by
    refine ⟨?_, rfl, le_rfl⟩
    intro key kept
    refine Function.update_of_ne ?_ _ _
    intro same
    subst same
    exact kept trivial
  refine .trans (steps_call alice [] rfl (emptyWorld Client 10)) ?_
  refine .head (.drifted afterSubmit.2 afterWork _ drift) ?_
  exact steps_call bob [⟨alice.2, afterSubmit.1⟩] rfl afterWork

end SmallPublication

open SmallService SmallPublication in
theorem smallPublication_final :
    (publications request config.world.events).length = 1 ∧
      ∃ history, app.RecordIs workId config.world history ∧ CompletedIsFinal history ∧
        app.SealsLastOnly workId config.world history ∧
        (publications request config.world.events).length ≤ 1 ∧
        app.PublishesRetained request config.world history :=
  ⟨by decide +kernel, publication_single_final app request workId (by decide +kernel)
    (emptyWorld Client 10) rfl rfl config steps_config⟩

end Usd8Core.JobApi
