import Usd8Core.JobApi.WorkLog
import Usd8Core.Lib.ProgramRequests

/-!
# The log of one publication

What the events of all submissions and polls require of the log before them where the
completion of one work is concerned: its record is final once completed, evidence is
written once, and a settlement is published from the evidence of the sealed attempt.
-/

set_option autoImplicit false

namespace Usd8Core.JobApi

open Usd8Core.Lib.EventLog
open App (RequestMatches)

variable {B β : Type}

/-- Objects that are written with `create` alone, so never again. -/
def Key.Immutable : Key → Prop
  | .completion _ => True
  | .completionRequest _ => True
  | .settlement _ => True
  | _ => False

theorem Key.Immutable.kept {key : Key} (immutable : key.Immutable) : ¬ key.Expires := by
  cases key <;> simp_all [Key.Immutable, Key.Expires]

section Records

variable (app : App β) (workId : String) (base : Key → List (Revision B β))

/-- The bytes of an object after the log, from the revisions there were at the start. -/
def bytesAfter (key : Key) (log : List (Event B β)) : Option β :=
  ((base key ++ writesTo key log).getLast?).map Revision.bytes

/-- A completed result of the job is retained, with the request it was for. -/
structure App.Evidence (stored : StoredRequest) (log : List (Event B β)) : Prop where
  result : ∃ bytes terminal, bytesAfter base (.completion stored.jobId) log = some bytes ∧
    app.parseTerminal bytes (some stored.jobId) = .ok terminal ∧ terminal.status = .completed
  request : bytesAfter base (.completionRequest stored.jobId) log =
    some (app.serde.requestBytes stored)

/-- The record of the work stands completed for the request. -/
def App.SealedFor (stored : StoredRequest) (log : List (Event B β)) : Prop :=
  ∃ owner state, app.workAt workId log = some (owner, state) ∧ state.completed = true ∧
    state.stored = stored

/-- The bytes are the retained result of a sealed attempt, and belong at the locator. -/
structure App.PublishRight (log : List (Event B β)) (locator : SettlementLocator) (bytes : β)
    (stored : StoredRequest) (terminal : TerminalEnvelope) : Prop where
  noted : Event.sealed stored ∈ log
  requested : RequestMatches stored.request locator
  parsed : app.parseTerminal bytes (some stored.jobId) = .ok terminal
  located : settlementLocatorFromTerminal terminal app.registry = .ok (some locator)
  retained : bytesAfter base (.completion stored.jobId) log = some bytes

/-! ## What events require -/

/-- A revision of the record follows only an unfinished one, and finishes only an attempt
with evidence. -/
structure App.RecordRight (log : List (Event B β)) (next : WorkAttempt) : Prop where
  unfinished : ∀ owner last, app.workAt workId log = some (owner, last) → last.completed = false
  evidence : next.completed = true → app.Evidence base next.stored log

/-- What a write needs. -/
structure App.WriteRight (log : List (Event B β)) (key : Key) (bytes : β) : Prop where
  once : key.Immutable → base key ++ writesTo key log = []
  record : key = .work workId →
    ∃ next, bytes = app.serde.workBytes next ∧ app.RecordRight workId base log next
  settlement : ∀ locator, key = .settlement locator →
    ∃ stored terminal, app.PublishRight base log locator bytes stored terminal

def App.Publishes (log : List (Event B β)) : Event B β → Prop
  | .wrote _ key bytes => app.WriteRight workId base log key bytes
  | .sealed stored => canonicalWorkId app.crypto stored.request app.defiInsurance = .ok workId →
      app.SealedFor workId stored log
  | _ => True

end Records

section Steps

variable {app : App β} {workId : String} {base : Key → List (Revision B β)}
  {log later : List (Event B β)} {event : Event B β}

theorem bytesAfter_quiet {key : Key} (quiet : event.writeTo key = none) :
    bytesAfter base key (log ++ [event]) = bytesAfter base key log := by
  simp [bytesAfter, writesTo, quiet]

theorem bytesAfter_eq_none_iff {key : Key} :
    bytesAfter base key log = none ↔ base key ++ writesTo key log = [] := by
  simp [bytesAfter, and_comm]

/-- An event leaves the object as it is, or writes it. -/
theorem writeTo_cases (event : Event B β) (key : Key) :
    event.writeTo key = none ∨ ∃ writer bytes, event = .wrote writer key bytes := by
  cases event with
  | wrote writer written bytes =>
      by_cases same : written = key
      · subst same
        exact .inr ⟨writer, bytes, rfl⟩
      · exact .inl (by simp [Event.writeTo, same])
  | _ => exact .inl rfl

/-- An event leaves the record as it is, or writes what may follow. -/
theorem App.Publishes.works_cases (allowed : app.Publishes workId base log event) :
    event.writeTo (.work workId) = none ∨
      ∃ writer next, event = .wrote writer (.work workId) (app.serde.workBytes next) ∧
        app.RecordRight workId base log next := by
  rcases writeTo_cases event (.work workId) with quiet | ⟨writer, bytes, isWrite⟩
  · exact .inl quiet
  · subst isWrite
    obtain ⟨next, isNext, right⟩ := allowed.record rfl
    exact .inr ⟨writer, next, by rw [isNext], right⟩

end Steps

/-! ## What a whole log obeys -/

section Runs

variable {app : App β} {workId : String} {base : Key → List (Revision B β)}
  {log past : List (Event B β)}

/-- What is written once stays. -/
theorem bytesAfter_final (legal : Legal (app.Publishes workId base) log) (older : past <+: log)
    (key : Key) (immutable : key.Immutable) {bytes : β}
    (there : bytesAfter base key past = some bytes) :
    bytesAfter base key log = some bytes := by
  refine legal.since (fun log => bytesAfter base key log = some bytes) older there ?_
  intro log event _ allowed holds
  rcases writeTo_cases event key with quiet | ⟨writer, written, isWrite⟩
  · rw [bytesAfter_quiet quiet]
    exact holds
  · subst isWrite
    have absent := bytesAfter_eq_none_iff.mpr (allowed.once immutable)
    rw [absent] at holds
    cases holds

theorem App.Evidence.later {stored : StoredRequest} (evidence : app.Evidence base stored past)
    (legal : Legal (app.Publishes workId base) log) (older : past <+: log) :
    app.Evidence base stored log := by
  obtain ⟨⟨bytes, terminal, retained, parsed⟩, request⟩ := evidence
  exact ⟨⟨bytes, terminal, bytesAfter_final legal older (.completion _) trivial retained, parsed⟩,
    bytesAfter_final legal older (.completionRequest _) trivial request⟩

/-- The revisions of the record are the texts of its states. -/
theorem writesTo_published (legal : Legal (app.Publishes workId base) log) :
    writesTo (.work workId) log =
      (app.works workId log).map fun entry => ⟨entry.1, app.serde.workBytes entry.2⟩ := by
  induction legal with
  | nil => rfl
  | snoc log event earlier allowed ih =>
      rcases allowed.works_cases with quiet | ⟨writer, next, isWrite, -⟩
      · rw [works_quiet quiet, writesTo_append, ih]
        simp [writesTo, quiet]
      · subst isWrite
        rw [works_write, writesTo_append, ih]
        simp [writesTo, Event.writeTo]

/-- A completed revision is the last one. -/
theorem completed_last (legal : Legal (app.Publishes workId base) log)
    {before after : List (B × WorkAttempt)} {revision : B × WorkAttempt}
    (split : app.works workId log = before ++ revision :: after)
    (completed : revision.2.completed = true) : after = [] := by
  induction legal generalizing after with
  | nil => simp [App.works, writesTo] at split
  | snoc log event earlier allowed ih =>
      rcases allowed.works_cases with quiet | ⟨writer, next, isWrite, right⟩
      · rw [works_quiet quiet] at split
        exact ih split
      · subst isWrite
        rw [works_write] at split
        rcases List.eq_nil_or_concat after with isLast | ⟨rest, final, isMore⟩
        · exact isLast
        · -- the revision before the new one would be the completed one
          subst isMore
          have whole : app.works workId log ++ [(writer, next)] =
              (before ++ revision :: rest) ++ [final] := by
            simpa using split
          obtain ⟨sameWorks, -⟩ := List.append_inj' whole rfl
          have isLast := ih sameWorks
          subst isLast
          have stands : app.workAt workId log = some revision := by
            rw [App.workAt, sameWorks]
            simp
          rw [right.unfinished revision.1 revision.2 stands] at completed
          cases completed

/-- A completed record never changes again. -/
theorem workAt_final (legal : Legal (app.Publishes workId base) log) (older : past <+: log)
    {owner : B} {state : WorkAttempt} (stands : app.workAt workId past = some (owner, state))
    (completed : state.completed = true) : app.works workId log = app.works workId past := by
  obtain ⟨init, split⟩ := List.getLast?_eq_some_iff.mp stands
  obtain ⟨more, extended⟩ : app.works workId past <+: app.works workId log := works_mono older
  have whole : app.works workId log = init ++ (owner, state) :: more := by
    rw [← extended, split]
    simp
  rw [← extended, completed_last legal whole completed, List.append_nil]

theorem App.SealedFor.later {stored : StoredRequest} (isSealed : app.SealedFor workId stored past)
    (legal : Legal (app.Publishes workId base) log) (older : past <+: log) :
    app.SealedFor workId stored log := by
  obtain ⟨owner, state, stands, completed, ofStored⟩ := isSealed
  refine ⟨owner, state, ?_, completed, ofStored⟩
  rw [App.workAt, workAt_final legal older stands completed]
  exact stands

/-- A request that passed the seal is the one the completed record is for. -/
theorem sealed_stands (legal : Legal (app.Publishes workId base) log) {stored : StoredRequest}
    (noted : Event.sealed stored ∈ log)
    (ofWork : canonicalWorkId app.crypto stored.request app.defiInsurance = .ok workId) :
    app.SealedFor workId stored log := by
  obtain ⟨before, occurs⟩ := exists_occurs noted
  exact (legal.allowed occurs ofWork).later legal occurs.before_isPrefix

/-- At most one request of the work passes the seal. -/
theorem sealed_unique (legal : Legal (app.Publishes workId base) log)
    {first second : StoredRequest} (firstNoted : Event.sealed first ∈ log)
    (secondNoted : Event.sealed second ∈ log)
    (firstOf : canonicalWorkId app.crypto first.request app.defiInsurance = .ok workId)
    (secondOf : canonicalWorkId app.crypto second.request app.defiInsurance = .ok workId) :
    first = second := by
  obtain ⟨_, _, stands, -, isFirst⟩ := sealed_stands legal firstNoted firstOf
  obtain ⟨_, _, stands', -, isSecond⟩ := sealed_stands legal secondNoted secondOf
  cases stands.symm.trans stands'
  exact isFirst.symm.trans isSecond

/-- A completed record has its evidence. -/
theorem completed_evidence (legal : Legal (app.Publishes workId base) log)
    {owner : B} {state : WorkAttempt} (stands : app.workAt workId log = some (owner, state))
    (completed : state.completed = true) : app.Evidence base state.stored log := by
  induction legal with
  | nil => simp [App.workAt, App.works, writesTo] at stands
  | snoc log event earlier allowed ih =>
      have legalNow := Legal.snoc log event earlier allowed
      rcases allowed.works_cases with quiet | ⟨writer, next, isWrite, right⟩
      · rw [App.workAt, works_quiet quiet] at stands
        exact (ih stands).later legalNow (List.prefix_append _ _)
      · subst isWrite
        rw [App.workAt, works_write, List.getLast?_append] at stands
        cases stands
        exact (right.evidence completed).later legalNow (List.prefix_append _ _)

end Runs

/-! ## Published settlements -/

/-- The settlement an event wrote for the request. -/
def Event.publication (request : CanonicalRequest) : Event B β → Option (SettlementLocator × β)
  | .wrote _ (.settlement locator) bytes =>
      if RequestMatches request locator then some (locator, bytes) else none
  | _ => none

/-- The settlements created for the request, in their order. -/
def publications (request : CanonicalRequest) (log : List (Event B β)) :
    List (SettlementLocator × β) :=
  log.filterMap (Event.publication request)

theorem publication_eq_some_iff {request : CanonicalRequest} {event : Event B β}
    {locator : SettlementLocator} {bytes : β} :
    event.publication request = some (locator, bytes) ↔
      ∃ writer, event = .wrote writer (.settlement locator) bytes ∧
        RequestMatches request locator := by
  cases event with
  | wrote writer key written =>
      cases key <;> simp [Event.publication]
      aesop
  | _ => simp [Event.publication]

theorem requestMatches_inj {first second : CanonicalRequest} {locator : SettlementLocator}
    (one : RequestMatches first locator) (two : RequestMatches second locator) :
    first = second := one.trans two.symm

section Published

variable {app : App β} {workId : String} {base : Key → List (Revision B β)}
  {log : List (Event B β)} {request : CanonicalRequest}

/-- What was published for the request was, and still is, the retained result of a sealed
attempt of it. -/
theorem published_right (legal : Legal (app.Publishes workId base) log) {writer : B}
    {locator : SettlementLocator} {bytes : β}
    (written : Event.wrote writer (.settlement locator) bytes ∈ log)
    (matching : RequestMatches request locator) :
    ∃ stored terminal, stored.request = request ∧
      app.PublishRight base log locator bytes stored terminal := by
  obtain ⟨before, occurs⟩ := exists_occurs written
  obtain ⟨stored, terminal, right⟩ := (legal.allowed occurs).settlement locator rfl
  refine ⟨stored, terminal, requestMatches_inj right.requested matching, ?_⟩
  exact ⟨occurs.before_isPrefix.subset right.noted, right.requested, right.parsed, right.located,
    bytesAfter_final legal occurs.before_isPrefix (.completion _) trivial right.retained⟩

/-- Both are the retained result of the one sealed attempt, so at one locator. -/
theorem published_same (legal : Legal (app.Publishes workId base) log)
    (ofWork : canonicalWorkId app.crypto request app.defiInsurance = .ok workId)
    {writer otherWriter : B} {locator other : SettlementLocator} {bytes otherBytes : β}
    (written : Event.wrote writer (.settlement locator) bytes ∈ log)
    (otherWritten : Event.wrote otherWriter (.settlement other) otherBytes ∈ log)
    (matching : RequestMatches request locator) (otherMatching : RequestMatches request other) :
    locator = other := by
  obtain ⟨stored, terminal, ofRequest, right⟩ := published_right legal written matching
  obtain ⟨otherStored, otherTerminal, otherOfRequest, otherRight⟩ :=
    published_right legal otherWritten otherMatching
  have sameStored : stored = otherStored :=
    sealed_unique legal right.noted otherRight.noted (ofRequest ▸ ofWork) (otherOfRequest ▸ ofWork)
  subst sameStored
  cases right.retained.symm.trans otherRight.retained
  cases right.parsed.symm.trans otherRight.parsed
  cases right.located.symm.trans otherRight.located
  rfl

/-- At most one settlement is published for the request. -/
theorem publications_length_le (legal : Legal (app.Publishes workId base) log)
    (ofWork : canonicalWorkId app.crypto request app.defiInsurance = .ok workId) :
    (publications request log).length ≤ 1 := by
  induction legal with
  | nil => simp [publications]
  | snoc log event earlier allowed ih =>
      have legalNow := Legal.snoc log event earlier allowed
      cases published : event.publication request with
      | none => simpa [publications, published] using ih
      | some publication =>
          obtain ⟨locator, bytes⟩ := publication
          obtain ⟨writer, isWrite, matching⟩ := publication_eq_some_iff.mp published
          subst isWrite
          have noneBefore : publications request log = [] := by
            rw [publications, List.filterMap_eq_nil_iff]
            intro old oldIn
            by_contra isPublication
            obtain ⟨⟨oldLocator, oldBytes⟩, wasPublished⟩ :=
              Option.ne_none_iff_exists'.mp isPublication
            obtain ⟨oldWriter, isOldWrite, oldMatching⟩ := publication_eq_some_iff.mp wasPublished
            subst isOldWrite
            have same : oldLocator = locator :=
              published_same legalNow ofWork (List.mem_append_left _ oldIn) occurs_last.mem
                oldMatching matching
            subst same
            have written : (⟨oldWriter, oldBytes⟩ : Revision B β) ∈
                writesTo (.settlement oldLocator) log :=
              List.mem_filterMap.mpr ⟨_, oldIn, by simp [Event.writeTo]⟩
            have absent := List.append_eq_nil_iff.mp (allowed.once trivial)
            rw [absent.2] at written
            cases written
          rw [publications] at noneBefore
          simp [publications, published, noneBefore]

end Published

end Usd8Core.JobApi
