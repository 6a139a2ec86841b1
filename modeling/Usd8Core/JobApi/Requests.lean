import Usd8Core.JobApi.App

/-!
# What an invocation knows after a request

A reply tells of the moment it was given at; what only grows is known from then on.
-/

set_option autoImplicit false

namespace Usd8Core.JobApi

open Usd8Core.Lib.Interleaving

variable {A B β α : Type}

/-- Requests served as the store serves them, under the name a caller writes with, where
`honest` may promise more about the replies of the other services. -/
def appMachine (name : Caller A → B) (honest : A → World B β → (op : Op β) → Reply β op → Prop)
    (starts : World B β → A → Prog β α → Prop) :
    Machine (World B β) A (Op β) (Reply β) ServiceError α where
  serve caller w op reply after := honest caller.2 w op reply ∧ Serves (name caller) w op reply after
  drift := Drift
  starts := starts

/-- What others leave as it is: history, and what is `fresh` for the caller. -/
structure Since (fresh : Caller A → World B β → Prop) (caller : Caller A)
    (w later : World B β) : Prop where
  grows : Grows w later
  fresh : fresh caller w → fresh caller later

theorem Since.trans {fresh : Caller A → World B β → Prop} {caller : Caller A}
    {w later final : World B β} (first : Since fresh caller w later)
    (second : Since fresh caller later final) : Since fresh caller w final :=
  ⟨first.grows.trans second.grows, fun holds => second.fresh (first.fresh holds)⟩

def relyOn (valid : World B β → Prop) (fresh : Caller A → World B β → Prop) :
    Rely (World B β) A where
  valid := valid
  others := Since fresh
  grows := fun _ => Grows
  idle := fresh
  refl := fun _ _ => ⟨.refl _, id⟩
  trans := Since.trans
  grows_of_others := Since.grows
  grows_trans := Grows.trans
  idle_of_others := Since.fresh

/-- A valid world between two others. -/
structure Moment (valid : World B β → Prop) (since moment current : World B β) : Prop where
  after : Grows since moment
  holds : valid moment
  before : Grows moment current

section Rules

variable {name : Caller A → B} {honest : A → World B β → (op : Op β) → Reply β op → Prop}
  {starts : World B β → A → Prog β α → Prop} {valid : World B β → Prop}
  {fresh : Caller A → World B β → Prop} {caller : Caller A} {w : World B β}

/-- A request that changes nothing. -/
theorem safe_passive {γ : Type} {op : Op β} {post : Except ServiceError γ → World B β → Prop}
    {next : Reply β op → Prog β γ}
    (passive : ∀ current reply after, Serves (name caller) current op reply after →
      after = current)
    (rest : ∀ moment reply, Grows w moment → valid moment → honest caller.2 moment op reply →
      Serves (name caller) moment op reply moment →
      Safe (appMachine name honest starts) (relyOn valid fresh).careful caller post
        (next reply) moment) :
    Safe (appMachine name honest starts) (relyOn valid fresh).careful caller post
      (.request op next) w := by
  intro current reply after since holds served
  obtain ⟨honestly, served⟩ := served
  have same := passive current reply after served
  subst same
  exact ⟨holds, ⟨.refl _, id⟩, rest after reply since.grows holds honestly served⟩

theorem safe_clock {failed : ServiceError → World B β → Prop} :
    Safe (appMachine name honest starts) (relyOn valid fresh).careful caller
      (Ends (fun (now : Nat) current => ∃ moment, Moment valid w moment current ∧
        honest caller.2 moment .clock now) failed) clock w := by
  refine safe_passive (fun current reply after served => by cases served; rfl) ?_
  intro moment reply grown holds honestly _
  exact safe_done reply fun current since _ => ⟨moment, ⟨grown, holds, since.grows⟩, honestly⟩

theorem safe_now :
    Safe (appMachine name honest starts) (relyOn valid fresh).careful caller
      (OnOk fun (now : Nat) current => ∃ moment, Moment valid w moment current ∧
        honest caller.2 moment .clock now) clock w :=
  safe_clock

theorem safe_getVersioned (key : Key) (maxBytes : Nat) :
    Safe (appMachine name honest starts) (relyOn valid fresh).careful caller
      (Ends (fun object current => ∃ moment, Moment valid w moment current ∧
        moment.current key = object ∧
        honest caller.2 moment (.getVersioned key maxBytes) (.ok object))
      fun error _ => ∃ moment, honest caller.2 moment (.getVersioned key maxBytes) (.error error))
      (getVersioned key maxBytes) w := by
  refine safe_passive (fun current reply after served => by cases served <;> rfl) ?_
  intro moment reply grown holds honestly served
  apply safe_ofExcept_of
  · intro object current same since _
    subst same
    refine ⟨moment, ⟨grown, holds, since.grows⟩, ?_, honestly⟩
    cases served
    rfl
  · intro error _ same _ _
    subst same
    exact ⟨moment, honestly⟩

theorem safe_canReleaseReservation {failed : ServiceError → World B β → Prop} (jobId : String)
    (launchUntil now : Nat) :
    Safe (appMachine name honest starts) (relyOn valid fresh).careful caller
      (Ends (fun released _ => released = true → ∃ moment,
        honest caller.2 moment (.canReleaseReservation jobId launchUntil now) (.ok true)) failed)
      (canReleaseReservation jobId launchUntil now) w := by
  refine safe_passive (fun current reply after served => by cases served; rfl) ?_
  intro moment reply _ _ honestly _
  apply safe_done
  intro current _ _ released
  refine ⟨moment, ?_⟩
  cases reply with
  | error error => cases released
  | ok value =>
      cases value with
      | true => exact honestly
      | false => cases released

theorem safe_precheck (request : CanonicalRequest) :
    Safe (appMachine name honest starts) (relyOn valid fresh).careful caller
      (OnOk fun _ _ => True) (precheck request) w := by
  refine safe_passive (fun current reply after served => by cases served; rfl) ?_
  intro moment reply _ _ _ _
  exact safe_ofExcept_of reply (fun _ _ _ _ _ => trivial) fun _ _ _ _ _ => trivial

theorem safe_verify (request : CanonicalRequest) (terminal : TerminalEnvelope) :
    Safe (appMachine name honest starts) (relyOn valid fresh).careful caller
      (OnOk fun _ _ => True) (verify request terminal) w := by
  refine safe_passive (fun current reply after served => by cases served; rfl) ?_
  intro moment reply _ _ _ _
  exact safe_ofExcept_of reply (fun _ _ _ _ _ => trivial) fun _ _ _ _ _ => trivial

theorem safe_downloadUrl (key : Key) (ttlSeconds : Nat) :
    Safe (appMachine name honest starts) (relyOn valid fresh).careful caller
      (OnOk fun _ _ => True) (downloadUrl key ttlSeconds) w := by
  refine safe_passive (fun current reply after served => by cases served; rfl) ?_
  intro moment reply _ _ _ _
  exact safe_ofExcept_of reply (fun _ _ _ _ _ => trivial) fun _ _ _ _ _ => trivial

/-- A compare-and-exchange that keeps the world valid wherever it succeeds. -/
theorem safe_compareExchange (key : Key) (revision : Option Nat) (value : β)
    (keeps : ∀ moment, Since fresh caller w moment → valid moment → moment.IsAt key revision →
      (∃ reply, honest caller.2 moment (.compareExchange key revision value) reply) →
      valid (moment.write (name caller) key value) ∧
        (fresh caller moment → fresh caller (moment.write (name caller) key value))) :
    Safe (appMachine name honest starts) (relyOn valid fresh).careful caller
      (Ends (fun swapped current => swapped = true → ∃ moment, Since fresh caller w moment ∧
        valid moment ∧ moment.IsAt key revision ∧ valid (moment.write (name caller) key value) ∧
        Grows (moment.write (name caller) key value) current)
      fun error _ => ∃ moment,
        honest caller.2 moment (.compareExchange key revision value) (.error error))
      (compareExchange key revision value) w := by
  intro current reply after since holds served
  obtain ⟨honestly, served⟩ := served
  cases served with
  | exchanged _ _ _ isAt =>
      obtain ⟨validAfter, keepsFresh⟩ := keeps current since holds isAt ⟨_, honestly⟩
      refine ⟨validAfter, ⟨grows_write .., keepsFresh⟩, ?_⟩
      exact safe_done true fun later follows _ _ =>
        ⟨current, since, holds, isAt, validAfter, follows.grows⟩
  | contended =>
      refine ⟨holds, ⟨.refl _, id⟩, ?_⟩
      exact safe_done false fun _ _ _ impossible => by cases impossible
  | exchangeLost _ _ _ isAt error =>
      obtain ⟨validAfter, keepsFresh⟩ := keeps current since holds isAt ⟨_, honestly⟩
      refine ⟨validAfter, ⟨grows_write .., keepsFresh⟩, ?_⟩
      exact safe_failWith error fun _ _ _ => ⟨current, honestly⟩
  | notExchanged _ _ _ error =>
      refine ⟨holds, ⟨.refl _, id⟩, ?_⟩
      exact safe_failWith error fun _ _ _ => ⟨current, honestly⟩

/-- A create-only write that keeps the world valid wherever it succeeds. -/
theorem safe_create (key : Key) (value : β)
    (keeps : ∀ moment, Since fresh caller w moment → valid moment → moment.objects key = [] →
      valid (moment.write (name caller) key value) ∧
        (fresh caller moment → fresh caller (moment.write (name caller) key value))) :
    Safe (appMachine name honest starts) (relyOn valid fresh).careful caller
      (OnOk fun outcome current => match outcome with
        | .created => ∃ moment, Grows w moment ∧ valid moment ∧ moment.objects key = [] ∧
            Grows (moment.write (name caller) key value) current
        | .exists existing => ∃ moment object, Moment valid w moment current ∧
            moment.current key = some object ∧ object.bytes = existing)
      (create key value) w := by
  intro current reply after since holds served
  obtain ⟨-, served⟩ := served
  cases served with
  | created _ _ absent =>
      obtain ⟨validAfter, keepsFresh⟩ := keeps current since holds absent
      refine ⟨validAfter, ⟨grows_write .., keepsFresh⟩, ?_⟩
      exact safe_done _ fun later follows _ =>
        ⟨current, since.grows, holds, absent, follows.grows⟩
  | existed _ _ object present =>
      refine ⟨holds, ⟨.refl _, id⟩, ?_⟩
      exact safe_done _ fun later follows _ =>
        ⟨current, object, ⟨since.grows, holds, follows.grows⟩, present, rfl⟩
  | createLost _ _ absent error =>
      obtain ⟨validAfter, keepsFresh⟩ := keeps current since holds absent
      exact ⟨validAfter, ⟨grows_write .., keepsFresh⟩, safe_fail error⟩
  | notCreated _ _ error => exact ⟨holds, ⟨.refl _, id⟩, safe_fail error⟩

theorem safe_get (key : Key) (maxBytes : Nat)
    (keeps : ∀ moment bytes, valid moment → valid (moment.record (.read key bytes)) ∧
      (fresh caller moment → fresh caller (moment.record (.read key bytes)))) :
    Safe (appMachine name honest starts) (relyOn valid fresh).careful caller
      (OnOk fun bytes current => Event.read key bytes ∈ current.events ∧
        ∃ moment, Moment valid w moment current ∧
          (moment.current key).map VersionedObject.bytes = bytes)
      (get key maxBytes) w := by
  intro current reply after since holds served
  obtain ⟨-, served⟩ := served
  cases served with
  | read =>
      obtain ⟨validAfter, keepsFresh⟩ := keeps current _ holds
      refine ⟨validAfter, ⟨grows_record _, keepsFresh⟩, ?_⟩
      apply safe_done
      intro later follows _
      refine ⟨follows.grows.events.subset (by simp [World.record]), current, ?_, rfl⟩
      exact ⟨since.grows, holds, (grows_record _).trans follows.grows⟩
  | unread _ _ error => exact ⟨holds, ⟨.refl _, id⟩, safe_fail error⟩

theorem safe_noteSealed (stored : StoredRequest)
    (keeps : ∀ moment, Since fresh caller w moment → valid moment →
      valid (moment.record (.sealed stored)) ∧
        (fresh caller moment → fresh caller (moment.record (.sealed stored)))) :
    Safe (appMachine name honest starts) (relyOn valid fresh).careful caller
      (OnOk fun _ current => Event.sealed stored ∈ current.events) (noteSealed stored) w := by
  intro current reply after since holds served
  obtain ⟨-, served⟩ := served
  cases served
  obtain ⟨validAfter, keepsFresh⟩ := keeps current since holds
  refine ⟨validAfter, ⟨grows_record _, keepsFresh⟩, ?_⟩
  exact safe_done _ fun later follows _ =>
    follows.grows.events.subset (by simp [World.record])

/-! ## Requests that give something of the caller's own away -/

theorem safe_compareExchange_loose (key : Key) (revision : Option Nat) (value : β)
    (keeps : ∀ moment, Since fresh caller w moment → valid moment → moment.IsAt key revision →
      valid (moment.write (name caller) key value)) :
    Safe (appMachine name honest starts) (relyOn valid fresh) caller (OnOk fun _ _ => True)
      (compareExchange key revision value) w := by
  intro current reply after since holds served
  obtain ⟨-, served⟩ := served
  cases served with
  | exchanged _ _ _ isAt =>
      exact ⟨keeps current since holds isAt, grows_write .., safe_done _ fun _ _ _ => trivial⟩
  | contended => exact ⟨holds, .refl _, safe_done _ fun _ _ _ => trivial⟩
  | exchangeLost _ _ _ isAt error =>
      exact ⟨keeps current since holds isAt, grows_write .., safe_fail error⟩
  | notExchanged _ _ _ error => exact ⟨holds, .refl _, safe_fail error⟩

theorem safe_launchBefore_loose (jobId : String) (deadline : Nat)
    (keeps : ∀ moment, Since fresh caller w moment → valid moment →
      valid (moment.record (.launched (name caller) jobId deadline))) :
    Safe (appMachine name honest starts) (relyOn valid fresh) caller (OnOk fun _ _ => True)
      (launchBefore jobId deadline) w := by
  intro current reply after since holds served
  obtain ⟨-, served⟩ := served
  cases served
  exact ⟨keeps current since holds, grows_record _, (safe_ofExcept reply).forget⟩

/-! ## Programs that only ask -/

theorem safe_orFail {γ : Type} {rely : Rely (World B β) A} (value : Option γ)
    (error : ServiceError) :
    Safe (appMachine name honest starts) rely caller
      (Ends (fun present _ => value = some present) fun found _ => found = error)
      (orFail value error) w := by
  cases value with
  | none => exact safe_failWith error fun _ _ _ => rfl
  | some present => exact safe_done present fun _ _ _ => rfl

theorem safe_verifyCompletion (app : App β) (stored : StoredRequest)
    (terminal : TerminalEnvelope) :
    Safe (appMachine name honest starts) (relyOn valid fresh).careful caller
      (OnOk fun _ _ => True) (app.verifyCompletion stored terminal) w := by
  unfold App.verifyCompletion
  split
  · exact safe_done () fun _ _ _ => trivial
  · have verified : ∀ w, Safe (appMachine name honest starts) (relyOn valid fresh).careful caller
        (OnOk fun _ _ => True) (app.verifyWith stored.request terminal) w := by
      intro w
      refine (safe_failIf _ _).bindOk fun _ _ _ _ _ => ?_
      exact safe_verify _ _
    refine (verified w).bindOk fun _ _ _ _ _ => ?_
    refine (safe_ofExcept _).bindOk fun _ _ _ _ _ => ?_
    refine (safe_orFail _ _).bindOk fun _ _ _ _ _ => ?_
    refine (safe_orFail _ _).bindOk fun _ _ _ _ _ => ?_
    exact (safe_failIf _ _).forget

theorem safe_checkPublished [DecidableEq β] (app : App β) (stored : StoredRequest)
    (locator : SettlementLocator) (existing : β) :
    Safe (appMachine name honest starts) (relyOn valid fresh).careful caller
      (OnOk fun _ _ => True) (app.checkPublished stored locator existing) w := by
  refine (safe_ofExcept _).bindOk fun existingTerminal _ _ _ _ => ?_
  refine (safe_failIf _ _).bindOk fun _ _ _ _ _ => ?_
  refine (safe_verifyCompletion app _ _).bindOk fun _ _ _ _ _ => ?_
  refine (safe_ofExcept _).bindOk fun found _ _ _ _ => ?_
  exact (safe_failIf _ _).forget

theorem safe_terminalOutcome (app : App β) (key : Key) (bytes : β) (terminal : TerminalEnvelope) :
    Safe (appMachine name honest starts) (relyOn valid fresh).careful caller
      (OnOk fun _ _ => True) (app.terminalOutcome key bytes terminal) w := by
  unfold App.terminalOutcome
  dsimp only
  split
  · exact safe_done _ fun _ _ _ => trivial
  · refine (safe_downloadUrl _ _).bindOk fun _ _ _ _ _ => ?_
    exact safe_done _ fun _ _ _ => trivial

end Rules

end Usd8Core.JobApi
