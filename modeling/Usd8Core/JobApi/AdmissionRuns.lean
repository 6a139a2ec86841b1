import Usd8Core.JobApi.Reserving

/-!
# Reservations in any order

Calls of `reserve_worker` with any deadlines and clocks, interleaved request by request
over one ledger object that is absent at first.
-/

set_option autoImplicit false

namespace Usd8Core.JobApi

open Usd8Core.Lib.ByteWords
open Usd8Core.Lib.Interleaving
open Usd8Core.Lib.RateWindow

variable {A β : Type}

/-! ## The recorded ledgers -/

/-- The revisions of the ledger object are the texts of the history. -/
def App.LedgerIs (app : App β) (w : World A β) (history : List (A × AdmissionLedger)) : Prop :=
  w.objects .admission = history.map fun entry => ⟨entry.1, app.serde.ledgerBytes entry.2⟩

section Ledgers

variable {app : App β} {w later : World A β} {history extended : List (A × AdmissionLedger)}

theorem ledgerRevision_injective :
    Function.Injective fun entry : A × AdmissionLedger =>
      (⟨entry.1, app.serde.ledgerBytes entry.2⟩ : Revision A β) := by
  rintro ⟨writer, ledger⟩ ⟨otherWriter, otherLedger⟩ same
  injection same with sameWriter sameBytes
  exact Prod.ext sameWriter (app.serde.ledgerBytes_injective sameBytes)

theorem App.LedgerIs.unique (first : app.LedgerIs w history) (second : app.LedgerIs w extended) :
    history = extended :=
  List.map_injective_iff.mpr ledgerRevision_injective (first.symm.trans second)

theorem App.LedgerIs.grows (earlier : app.LedgerIs w history) (now : app.LedgerIs later extended)
    (grown : Grows w later) : history <+: extended := by
  have kept := grown.objects .admission id
  rw [earlier, now] at kept
  exact (List.prefix_map_iff_of_injective ledgerRevision_injective).mp kept

theorem App.LedgerIs.write (ledgers : app.LedgerIs w history) (agent : A) (next : AdmissionLedger) :
    app.LedgerIs (w.write agent .admission (app.serde.ledgerBytes next))
      (history ++ [(agent, next)]) := by
  rw [App.LedgerIs, write_objects_self, ledgers, List.map_append]
  rfl

theorem App.LedgerIs.ledgerIn (ledgers : app.LedgerIs w history) :
    app.ledgerIn w = ledgerOf history := by
  rw [App.ledgerIn, World.current, ledgers, List.getLast?_map, ledgerOf]
  cases history.getLast? with
  | none => rfl
  | some entry => simp [app.serde.parseLedger_ledgerBytes]

end Ledgers

/-! ## One call -/

/-- Some revision of the ledger holds the slot of the call. -/
def Holds (history : List (Reservation × AdmissionLedger)) (call : Reservation) : Prop :=
  ∃ entry ∈ history, ∃ slot ∈ entry.2.reservations,
    slot.jobId = call.jobId ∧ slot.launchUntil = call.launchUntil

/-- Ledgers that admission can have written. -/
def App.LedgersValid (app : App β) (w : World Reservation β) : Prop :=
  ∃ history, app.LedgerIs w history ∧ Committed app.admission history

def App.Reserved (app : App β) (call : Reservation) (w : World Reservation β) : Prop :=
  ∃ history, app.LedgerIs w history ∧ Holds history call

/-- Calls with any job ids, deadlines and clocks, and nothing promised of the services. -/
def App.reserveMachine [DecidableEq β] (app : App β) :
    Machine (World Reservation β) Reservation (Op β) (Reply β) ServiceError Unit :=
  appMachine Prod.snd (fun _ _ _ _ => True)
    fun _ call program => program = app.reserveWorker call.jobId call.launchUntil

def App.reserveRely (app : App β) : Rely (World Reservation β) Reservation :=
  (relyOn app.LedgersValid fun _ _ => True).careful

section Calls

variable [DecidableEq β] {app : App β} {w : World Reservation β} {call : Reservation}

theorem holds_of_mem {history : List (Reservation × AdmissionLedger)} {slot : WorkerReservation}
    (member : slot ∈ (ledgerOf history).reservations) (sameJob : slot.jobId = call.jobId)
    (sameDeadline : slot.launchUntil = call.launchUntil) : Holds history call := by
  cases last : history.getLast? with
  | none =>
      rw [ledgerOf, last] at member
      cases member
  | some entry =>
      rw [ledgerOf, last] at member
      exact ⟨entry, List.mem_of_getLast? last, slot, member, sameJob, sameDeadline⟩

/-- One call keeps the ledgers valid and succeeds only with its slot recorded. -/
theorem safe_reserveWorker (number : Nat) :
    Safe app.reserveMachine app.reserveRely (number, call)
      (OnOk fun _ current => app.Reserved call current)
      (app.reserveWorker call.jobId call.launchUntil) w := by
  refine (safe_reserveLoop call 16 ?keeps).endsOf ?seen fun _ _ _ _ => trivial
  case keeps =>
    intro moment next _ valid _ admits
    obtain ⟨history, ledgers, committed⟩ := valid
    rw [ledgers.ledgerIn] at admits
    exact ⟨⟨_, ledgers.write call next, .snoc _ _ _ committed admits.forget⟩, id⟩
  case seen =>
    intro _ current valid seen
    obtain ⟨moment, during, slot, member, sameJob, sameDeadline⟩ := seen
    obtain ⟨earlier, ledgersThen, -⟩ := during.holds
    obtain ⟨history, ledgers, -⟩ := valid
    rw [ledgersThen.ledgerIn] at member
    obtain ⟨entry, inEarlier, slotThere⟩ := holds_of_mem member sameJob sameDeadline
    exact ⟨history, ledgers, entry, (ledgersThen.grows ledgers during.before).subset inEarlier,
      slotThere⟩

end Calls

/-! ## Any number of calls -/

/-- What the limits of the policy mean for the history of the ledger. -/
structure AdmissionBounded (policy : AdmissionPolicy)
    (history : List (Reservation × AdmissionLedger)) : Prop where
  starts : ∀ commit ∈ commits AdmissionLedger.empty history, commit.after.starts =
    App.retainedStarts commit.after.observedAt commit.before.starts ++ commit.newStarts
  hourly : ∀ start, (within 3600 start (charges history)).length ≤ policy.maxStartsPerHour
  ordered : (charges history).Pairwise (· ≤ ·)
  once : ∀ commit ∈ commits AdmissionLedger.empty history,
    (∃ slot ∈ commit.before.reservations, slot.jobId = commit.writer.jobId) →
      commit.newStarts = []
  active : 0 < policy.maxActiveWorkers → ∀ commit ∈ commits AdmissionLedger.empty history,
    commit.AddsReservation → commit.after.reservations.length ≤ policy.maxActiveWorkers

theorem Committed.bounded {policy : AdmissionPolicy}
    {history : List (Reservation × AdmissionLedger)} (committed : Committed policy history) :
    AdmissionBounded policy history where
  starts := by
    intro commit member
    obtain ⟨startsEq, -, past⟩ := (committed.admits commit member).starts
    rw [startsEq, retainedStarts_eq_recent past]
  hourly := committed.invariant.admitted.within_le
  ordered := committed.invariant.admitted.ordered
  once := by
    intro commit member held
    obtain ⟨slot, inLedger, sameJob⟩ := held
    rcases (committed.admits commit member).newStarts with none | ⟨-, noSlot, -⟩
    · exact none
    · exact absurd sameJob (noSlot slot inLedger)
  active := fun limited commit member =>
    (committed.admits commit member).bounded limited

/-- Whatever the interleaving, clocks and replies: the limits hold of the recorded
ledgers, and a call that succeeded has its slot in one of them. -/
theorem admission_bounded [DecidableEq β] (app : App β)
    (start : World Reservation β) (absent : start.objects .admission = [])
    (config : Config (World Reservation β) Reservation (Op β) (Reply β) ServiceError Unit)
    (steps : Steps app.reserveMachine ⟨start, []⟩ config) :
    ∃ history, app.LedgerIs config.world history ∧ AdmissionBounded app.admission history ∧
      ∀ call, ⟨call, .done ()⟩ ∈ config.threads → Holds history call := by
  have respects : Respects app.reserveMachine app.reserveRely
      fun caller => OnOk fun _ current => app.Reserved caller.2 current := by
    refine ⟨?_, fun _ _ since => ⟨since.grows, id⟩, ?_⟩
    · intro world number call program _ _ allowed
      cases allowed
      exact safe_reserveWorker number
    · intro world after valid drift
      obtain ⟨history, ledgers, committed⟩ := valid
      exact ⟨⟨history, (drift.objects .admission id).trans ledgers, committed⟩,
        fun _ => ⟨drift.grows, id⟩⟩
  have safe := steps_allSafe respects (allSafe_nil ⟨[], absent, .nil⟩ fun _ => trivial) steps
  obtain ⟨history, ledgers, committed⟩ := safe.valid
  refine ⟨history, ledgers, committed.bounded, ?_⟩
  intro call ended
  obtain ⟨number, present⟩ := List.mem_iff_getElem?.mp ended
  obtain ⟨recorded, sameLedgers, holds⟩ := safe.result present
  rw [ledgers.unique sameLedgers]
  exact holds

def aliceCall : Reservation := ⟨String.ofList (List.replicate 64 'a'), 120⟩

def bobCall : Reservation := ⟨String.ofList (List.replicate 64 'b'), 130⟩

/-- The two calls one after the other. -/
def twoReservations : Config (World Reservation SmallService.Text) Reservation
    (Op SmallService.Text) (Reply SmallService.Text) ServiceError Unit :=
  let first := runAlone (World.answer aliceCall)
    (SmallService.app.reserveWorker aliceCall.jobId aliceCall.launchUntil)
    (SmallService.emptyWorld Reservation 10)
  let second := runAlone (World.answer bobCall)
    (SmallService.app.reserveWorker bobCall.jobId bobCall.launchUntil) first.2
  ⟨second.2, [⟨aliceCall, first.1⟩, ⟨bobCall, second.1⟩]⟩

theorem twoReservations_steps : Steps SmallService.app.reserveMachine
    ⟨SmallService.emptyWorld Reservation 10, []⟩ twoReservations := by
  have serves : ∀ number call (world : World Reservation SmallService.Text) op,
      SmallService.app.reserveMachine.serve (number, call) world op (world.answer call op).1
        (world.answer call op).2 :=
    fun _ call world op => ⟨trivial, World.serves_answer call world op⟩
  refine .head (.started _ [] aliceCall _ rfl) ?_
  refine .trans (steps_runAlone (World.answer aliceCall) (fun _ => True) []
    (fun world op _ => serves 0 aliceCall world op) (fun _ _ _ => trivial) _ _ trivial) ?_
  refine .head (.started _ _ bobCall _ rfl) ?_
  exact steps_runAlone (World.answer bobCall) (fun _ => True) [_]
    (fun world op _ => serves 1 bobCall world op) (fun _ _ _ => trivial) _ _ trivial

theorem twoReservations_bounded :
    (twoReservations.world.objects .admission).length = 2 ∧
      ∃ history, SmallService.app.LedgerIs twoReservations.world history ∧
        AdmissionBounded SmallService.app.admission history ∧
        ∀ call, ⟨call, .done ()⟩ ∈ twoReservations.threads → Holds history call :=
  ⟨by decide +kernel, admission_bounded SmallService.app (SmallService.emptyWorld Reservation 10) rfl
    twoReservations twoReservations_steps⟩

end Usd8Core.JobApi
