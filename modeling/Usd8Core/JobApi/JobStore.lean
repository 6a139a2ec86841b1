import Usd8Core.JobApi.Protocol
import Usd8Core.Lib.Interleaving

/-!
# The object store and the services around it

Every object keeps all its revisions.  A create-only write needs an absent object, a
compare-and-exchange the revision that was read.  Every request may end in an error;
one that writes may have written all the same.
-/

set_option autoImplicit false

namespace Usd8Core.JobApi

open Usd8Core.Lib.Interleaving

/-! ## Objects -/

inductive Key where
  | admission
  | work (workId : String)
  | request (jobId : String)
  | terminal (jobId : String)
  | completion (jobId : String)
  | completionRequest (jobId : String)
  | settlement (locator : SettlementLocator)
  deriving DecidableEq

/-- The path of an object in the bucket. -/
def Key.path : Key → String
  | .admission => "control/admission/v1.json"
  | .work workId => "control/work/" ++ workId ++ ".json"
  | .request jobId => "requests/" ++ jobId ++ ".json"
  | .terminal jobId => "terminal/" ++ jobId ++ ".json"
  | .completion jobId => "control/completions/" ++ jobId ++ ".json"
  | .completionRequest jobId => "control/completion-requests/" ++ jobId ++ ".json"
  | .settlement locator => "settlements/v2/" ++ toString locator.chainId ++ "/" ++
      locator.registry ++ "/" ++ locator.defiInsurance ++ "/" ++ locator.incidentId ++ "/" ++
      locator.root ++ ".json"

/-- Workers write these objects and the bucket lets them expire. -/
def Key.Expires : Key → Prop
  | .request _ => True
  | .terminal _ => True
  | _ => False

inductive CreateOutcome (β : Type) where
  | created
  | exists (existing : β)

/-- The bytes of an object with the number of revisions it had when it was read. -/
structure VersionedObject (β : Type) where
  bytes : β
  revision : Nat

structure Revision (A β : Type) where
  writer : A
  bytes : β

/-! ## World -/

/-- What the invocations did, besides reads that only steer them. -/
inductive Event (A β : Type) where
  | wrote (writer : A) (key : Key) (bytes : β)
  | read (key : Key) (bytes : Option β)
  | launched (launcher : A) (jobId : String) (deadline : Nat)
  | sealed (stored : StoredRequest)

structure World (A β : Type) where
  objects : Key → List (Revision A β)
  events : List (Event A β)
  clock : Nat

namespace World

variable {A β : Type}

def revisions (w : World A β) (key : Key) : List β := (w.objects key).map Revision.bytes

def current (w : World A β) (key : Key) : Option (VersionedObject β) :=
  (w.objects key).getLast?.map fun last => ⟨last.bytes, (w.objects key).length⟩

def record (w : World A β) (event : Event A β) : World A β :=
  { w with events := w.events ++ [event] }

def write (w : World A β) (writer : A) (key : Key) (bytes : β) : World A β :=
  { objects := Function.update w.objects key (w.objects key ++ [⟨writer, bytes⟩])
    events := w.events ++ [.wrote writer key bytes]
    clock := w.clock }

/-- Whether the object is at the revision; no revision stands for its absence. -/
def IsAt (w : World A β) (key : Key) (revision : Option Nat) : Prop :=
  match revision with
  | none => w.objects key = []
  | some number => w.objects key ≠ [] ∧ (w.objects key).length = number

end World

/-! ## Requests of an invocation -/

inductive Op (β : Type) where
  | clock
  | getVersioned (key : Key) (maxBytes : Nat)
  | compareExchange (key : Key) (revision : Option Nat) (value : β)
  | create (key : Key) (value : β)
  | get (key : Key) (maxBytes : Nat)
  | downloadUrl (key : Key) (ttlSeconds : Nat)
  | precheck (request : CanonicalRequest)
  | canReleaseReservation (jobId : String) (launchUntil now : Nat)
  | launchBefore (jobId : String) (deadline : Nat)
  | verify (request : CanonicalRequest) (terminal : TerminalEnvelope)
  | noteSealed (stored : StoredRequest)

abbrev Reply (β : Type) : Op β → Type
  | .clock => Nat
  | .getVersioned _ _ => Except ServiceError (Option (VersionedObject β))
  | .compareExchange _ _ _ => Except ServiceError Bool
  | .create _ _ => Except ServiceError (CreateOutcome β)
  | .get _ _ => Except ServiceError (Option β)
  | .downloadUrl _ _ => Except ServiceError String
  | .precheck _ => Except ServiceError Unit
  | .canReleaseReservation _ _ _ => Except ServiceError Bool
  | .launchBefore _ _ => Except ServiceError Unit
  | .verify _ _ => Except ServiceError Unit
  | .noteSealed _ => Unit

/-- What a request does to the world and which replies it can get. -/
inductive Serves {A β : Type} (agent : A) : World A β → (op : Op β) → Reply β op → World A β → Prop
  | clock (w : World A β) (now : Nat) : Serves agent w .clock now w
  | found (w : World A β) (key : Key) (maxBytes : Nat) :
      Serves agent w (.getVersioned key maxBytes) (.ok (w.current key)) w
  | notRead (w : World A β) (key : Key) (maxBytes : Nat) (error : ServiceError) :
      Serves agent w (.getVersioned key maxBytes) (.error error) w
  | exchanged (w : World A β) (key : Key) (revision : Option Nat) (value : β)
      (isAt : w.IsAt key revision) :
      Serves agent w (.compareExchange key revision value) (.ok true) (w.write agent key value)
  | contended (w : World A β) (key : Key) (revision : Option Nat) (value : β) :
      Serves agent w (.compareExchange key revision value) (.ok false) w
  | exchangeLost (w : World A β) (key : Key) (revision : Option Nat) (value : β)
      (isAt : w.IsAt key revision) (error : ServiceError) :
      Serves agent w (.compareExchange key revision value) (.error error)
        (w.write agent key value)
  | notExchanged (w : World A β) (key : Key) (revision : Option Nat) (value : β)
      (error : ServiceError) :
      Serves agent w (.compareExchange key revision value) (.error error) w
  | created (w : World A β) (key : Key) (value : β) (absent : w.objects key = []) :
      Serves agent w (.create key value) (.ok .created) (w.write agent key value)
  | existed (w : World A β) (key : Key) (value : β) (object : VersionedObject β)
      (present : w.current key = some object) :
      Serves agent w (.create key value) (.ok (.exists object.bytes)) w
  | createLost (w : World A β) (key : Key) (value : β) (absent : w.objects key = [])
      (error : ServiceError) :
      Serves agent w (.create key value) (.error error) (w.write agent key value)
  | notCreated (w : World A β) (key : Key) (value : β) (error : ServiceError) :
      Serves agent w (.create key value) (.error error) w
  | read (w : World A β) (key : Key) (maxBytes : Nat) :
      Serves agent w (.get key maxBytes) (.ok ((w.current key).map VersionedObject.bytes))
        (w.record (.read key ((w.current key).map VersionedObject.bytes)))
  | unread (w : World A β) (key : Key) (maxBytes : Nat) (error : ServiceError) :
      Serves agent w (.get key maxBytes) (.error error) w
  | linked (w : World A β) (key : Key) (ttlSeconds : Nat) (reply : Except ServiceError String) :
      Serves agent w (.downloadUrl key ttlSeconds) reply w
  | prechecked (w : World A β) (request : CanonicalRequest)
      (reply : Except ServiceError Unit) : Serves agent w (.precheck request) reply w
  | released (w : World A β) (jobId : String) (launchUntil now : Nat)
      (reply : Except ServiceError Bool) :
      Serves agent w (.canReleaseReservation jobId launchUntil now) reply w
  | launched (w : World A β) (jobId : String) (deadline : Nat)
      (reply : Except ServiceError Unit) :
      Serves agent w (.launchBefore jobId deadline) reply (w.record (.launched agent jobId deadline))
  | verified (w : World A β) (request : CanonicalRequest) (terminal : TerminalEnvelope)
      (reply : Except ServiceError Unit) : Serves agent w (.verify request terminal) reply w
  | noted (w : World A β) (stored : StoredRequest) :
      Serves agent w (.noteSealed stored) () (w.record (.sealed stored))

/-! ## Histories only grow -/

/-- Time goes on, nothing that happened is forgotten, and objects that do not expire
keep their revisions. -/
structure Grows {A β : Type} (w later : World A β) : Prop where
  objects : ∀ key, ¬ key.Expires → w.objects key <+: later.objects key
  events : w.events <+: later.events
  clock : w.clock ≤ later.clock

/-- What happens without any invocation: time passes, and expiring objects come and go. -/
structure Drift {A β : Type} (w later : World A β) : Prop where
  objects : ∀ key, ¬ key.Expires → later.objects key = w.objects key
  events : later.events = w.events
  clock : w.clock ≤ later.clock

theorem drift_later {A β : Type} (w : World A β) (clock : Nat) (later : w.clock ≤ clock) :
    Drift w { w with clock := clock } :=
  ⟨fun _ _ => rfl, rfl, later⟩

section Growth

variable {A β : Type} {agent : A} {w later final : World A β}

theorem Grows.refl (w : World A β) : Grows w w :=
  ⟨fun _ _ => List.prefix_rfl, List.prefix_rfl, le_rfl⟩

theorem Grows.trans (first : Grows w later) (second : Grows later final) : Grows w final :=
  ⟨fun key kept => (first.objects key kept).trans (second.objects key kept),
    first.events.trans second.events, first.clock.trans second.clock⟩

theorem Drift.grows (drift : Drift w later) : Grows w later :=
  ⟨fun key kept => by rw [drift.objects key kept],
    by rw [drift.events], drift.clock⟩

@[simp] theorem write_objects_self (key : Key) (bytes : β) :
    (w.write agent key bytes).objects key = w.objects key ++ [⟨agent, bytes⟩] :=
  Function.update_self ..

theorem write_objects_of_ne {key other : Key} (bytes : β) (differ : other ≠ key) :
    (w.write agent key bytes).objects other = w.objects other :=
  Function.update_of_ne differ ..

theorem grows_write (key : Key) (bytes : β) : Grows w (w.write agent key bytes) := by
  refine ⟨?_, List.prefix_append _ _, le_rfl⟩
  intro other _
  by_cases same : other = key
  · subst same
    rw [write_objects_self]
    exact List.prefix_append _ _
  · rw [write_objects_of_ne bytes same]

theorem grows_record (event : Event A β) : Grows w (w.record event) :=
  ⟨fun _ _ => List.prefix_rfl, List.prefix_append _ _, le_rfl⟩

theorem Serves.grows {op : Op β} {reply : Reply β op} (served : Serves agent w op reply later) :
    Grows w later := by
  cases served with
  | exchanged key revision value isAt => exact grows_write key value
  | exchangeLost key revision value isAt error => exact grows_write key value
  | created key value absent => exact grows_write key value
  | createLost key value absent error => exact grows_write key value
  | read key maxBytes => exact grows_record _
  | launched jobId deadline reply => exact grows_record _
  | noted stored => exact grows_record _
  | _ => exact .refl w

end Growth

section Revisions

variable {A β : Type} {w later : World A β}

/-- At the revision that was read, the object is the one that was read. -/
theorem objects_eq_of_isAt {key : Key} (kept : ¬ key.Expires) (grown : Grows w later)
    (isAt : later.IsAt key ((w.current key).map VersionedObject.revision)) :
    later.objects key = w.objects key := by
  have grew := grown.objects key kept
  have length : (w.objects key).length = (later.objects key).length := by
    cases last : (w.objects key).getLast? with
    | none =>
        have empty : w.objects key = [] := by simpa using last
        rw [World.current, last] at isAt
        have emptyLater : later.objects key = [] := isAt
        rw [empty, emptyLater]
    | some revision =>
        rw [World.current, last] at isAt
        exact isAt.2.symm
  exact (grew.eq_of_length length).symm

theorem current_eq_of_isAt {key : Key} (kept : ¬ key.Expires) (grown : Grows w later)
    (isAt : later.IsAt key ((w.current key).map VersionedObject.revision)) :
    later.current key = w.current key := by
  rw [World.current, World.current, objects_eq_of_isAt kept grown isAt]

theorem current_write (agent : A) (key : Key) (bytes : β) :
    (w.write agent key bytes).current key = some ⟨bytes, (w.objects key).length + 1⟩ := by
  simp [World.current]

end Revisions

/-! ## A store that always answers -/

namespace World

variable {A β : Type}

instance (w : World A β) (key : Key) (revision : Option Nat) : Decidable (w.IsAt key revision) :=
  match revision with
  | none => decidable_of_iff ((w.objects key).isEmpty = true) List.isEmpty_iff
  | some number =>
      decidable_of_iff (¬ (w.objects key).isEmpty = true ∧ (w.objects key).length = number)
        (by simp [IsAt, List.isEmpty_iff])

def answerCreate (agent : A) (w : World A β) (key : Key) (value : β) :
    Except ServiceError (CreateOutcome β) × World A β :=
  match w.current key with
  | none => (.ok .created, w.write agent key value)
  | some object => (.ok (.exists object.bytes), w)

/-- No request fails, no worker is released and every candidate is verified. -/
def answer (agent : A) (w : World A β) : (op : Op β) → Reply β op × World A β
  | .clock => (w.clock, w)
  | .getVersioned key _ => (.ok (w.current key), w)
  | .compareExchange key revision value =>
      if w.IsAt key revision then (.ok true, w.write agent key value) else (.ok false, w)
  | .create key value => w.answerCreate agent key value
  | .get key _ =>
      let bytes := (w.current key).map VersionedObject.bytes
      (.ok bytes, w.record (.read key bytes))
  | .downloadUrl key _ => (.ok key.path, w)
  | .precheck _ => (.ok (), w)
  | .canReleaseReservation _ _ _ => (.ok false, w)
  | .launchBefore jobId deadline => (.ok (), w.record (.launched agent jobId deadline))
  | .verify _ _ => (.ok (), w)
  | .noteSealed stored => ((), w.record (.sealed stored))

theorem answer_clock (agent : A) (w : World A β) (op : Op β) :
    (w.answer agent op).2.clock = w.clock := by
  cases op with
  | compareExchange key revision value =>
      simp only [answer]
      split <;> rfl
  | create key value =>
      simp only [answer, answerCreate]
      split <;> rfl
  | _ => rfl

theorem serves_answer (agent : A) (w : World A β) (op : Op β) :
    Serves agent w op (w.answer agent op).1 (w.answer agent op).2 := by
  cases op with
  | clock => exact .clock w _
  | getVersioned key maxBytes => exact .found w key maxBytes
  | compareExchange key revision value =>
      by_cases isAt : w.IsAt key revision
      · simp only [answer, if_pos isAt]
        exact .exchanged w key revision value isAt
      · simp only [answer, if_neg isAt]
        exact .contended w key revision value
  | create key value =>
      simp only [answer, answerCreate]
      cases present : w.current key with
      | none =>
          refine .created w key value ?_
          simpa [current] using present
      | some object => exact .existed w key value object present
  | get key maxBytes => exact .read w key maxBytes
  | downloadUrl key ttlSeconds => exact .linked w key ttlSeconds _
  | precheck request => exact .prechecked w request _
  | canReleaseReservation jobId launchUntil now => exact .released w jobId launchUntil now _
  | launchBefore jobId deadline => exact .launched w jobId deadline _
  | verify request terminal => exact .verified w request terminal _
  | noteSealed stored => exact .noted w stored

end World

end Usd8Core.JobApi
