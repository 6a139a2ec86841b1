import Usd8Core.JobApi.Admission
import Usd8Core.JobApi.Requests

/-!
# One reservation call

What a call may write to the ledger object, and what its end tells of the ledger.
-/

set_option autoImplicit false

namespace Usd8Core.JobApi

open Usd8Core.Lib.ByteWords
open Usd8Core.Lib.CheckedCall (saturatingAdd)
open Usd8Core.Lib.Interleaving

variable {A B β α : Type}

/-- The ledger in the store; an absent one is empty. -/
def App.ledgerIn (app : App β) (w : World B β) : AdmissionLedger :=
  ((w.current .admission).bind fun object => app.serde.parseLedger object.bytes).getD
    AdmissionLedger.empty

theorem App.ledgerIn_write (app : App β) (w : World B β) (writer : B) (ledger : AdmissionLedger) :
    app.ledgerIn (w.write writer .admission (app.serde.ledgerBytes ledger)) = ledger := by
  simp [App.ledgerIn, current_write, app.serde.parseLedger_ledgerBytes]

theorem App.ledgerIn_eq_of_isAt (app : App β) {w later : World B β} (grown : Grows w later)
    (isAt : later.IsAt .admission ((w.current .admission).map VersionedObject.revision)) :
    app.ledgerIn later = app.ledgerIn w := by
  rw [App.ledgerIn, App.ledgerIn, current_eq_of_isAt id grown isAt]

/-- Why cleanup at `now` may drop the slot. -/
def App.ReleasedBy (app : App β) (honest : World B β → (op : Op β) → Reply β op → Prop) (now : Nat)
    (slot : WorkerReservation) : Prop :=
  if app.admission.maxActiveWorkers = 0 then
    now > max (saturatingAdd (slot.startedAt.getD slot.launchUntil) 3600)
      (saturatingAdd slot.launchUntil 900)
  else ∃ moment, honest moment (.canReleaseReservation slot.jobId slot.launchUntil now) (.ok true)

/-- No error of the store claims to be a denial. -/
def Plain (honest : World B β → (op : Op β) → Reply β op → Prop) : Prop :=
  ∀ moment, (∀ key maxBytes,
      ¬ honest moment (.getVersioned key maxBytes) (.error .admissionLimited)) ∧
    ∀ key revision value,
      ¬ honest moment (.compareExchange key revision value) (.error .admissionLimited)

/-- The call read this clock since `w`. -/
def ClockRead (honest : World B β → (op : Op β) → Reply β op → Prop) (w moment : World B β)
    (now : Nat) : Prop :=
  ∃ read, Grows w read ∧ Grows read moment ∧ honest read .clock now

/-- The slot of the call was in the ledger since `w`. -/
def App.SlotSeen (app : App β) (valid : World B β → Prop) (call : Reservation)
    (w current : World B β) : Prop :=
  ∃ moment, Moment valid w moment current ∧
    ∃ slot ∈ (app.ledgerIn moment).reservations,
      slot.jobId = call.jobId ∧ slot.launchUntil = call.launchUntil

/-- The job of the call had no slot in the ledger that denied it since `w`. -/
def App.DenialSeen (app : App β) (valid : World B β → Prop)
    (honest : World B β → (op : Op β) → Reply β op → Prop) (call : Reservation)
    (w current : World B β) : Prop :=
  ∃ moment now, Moment valid w moment current ∧ ClockRead honest w moment now ∧
    (app.ledgerIn moment).observedAt ≤ now ∧
    ∀ slot ∈ (app.ledgerIn moment).reservations, slot.jobId ≠ call.jobId

theorem App.SlotSeen.since {app : App β} {valid : World B β → Prop} {call : Reservation}
    {earlier w current : World B β} (seen : app.SlotSeen valid call w current)
    (grown : Grows earlier w) : app.SlotSeen valid call earlier current := by
  obtain ⟨moment, during, slot⟩ := seen
  exact ⟨moment, ⟨grown.trans during.after, during.holds, during.before⟩, slot⟩

theorem ClockRead.since {honest : World B β → (op : Op β) → Reply β op → Prop}
    {earlier w moment : World B β} {now : Nat} (clockRead : ClockRead honest w moment now)
    (grown : Grows earlier w) : ClockRead honest earlier moment now := by
  obtain ⟨read, after, before, honestly⟩ := clockRead
  exact ⟨read, grown.trans after, before, honestly⟩

theorem ClockRead.until {honest : World B β → (op : Op β) → Reply β op → Prop}
    {w moment later : World B β} {now : Nat} (clockRead : ClockRead honest w moment now)
    (grown : Grows moment later) : ClockRead honest w later now := by
  obtain ⟨read, after, before, honestly⟩ := clockRead
  exact ⟨read, after, before.trans grown, honestly⟩

theorem App.DenialSeen.since {app : App β} {valid : World B β → Prop}
    {honest : World B β → (op : Op β) → Reply β op → Prop} {call : Reservation}
    {earlier w current : World B β} (seen : app.DenialSeen valid honest call w current)
    (grown : Grows earlier w) : app.DenialSeen valid honest call earlier current := by
  obtain ⟨moment, now, during, clockRead, observed, noSlot⟩ := seen
  exact ⟨moment, now, ⟨grown.trans during.after, during.holds, during.before⟩,
    clockRead.since grown, observed, noSlot⟩

section Calls

variable {name : Caller A → B} {honest : A → World B β → (op : Op β) → Reply β op → Prop}
  {starts : World B β → A → Prog β α → Prop} {valid : World B β → Prop}
  {fresh : Caller A → World B β → Prop} {caller : Caller A} {w : World B β} {app : App β}

theorem safe_retainSlots (now : Nat) (slots : List WorkerReservation) :
    Safe (appMachine name honest starts) (relyOn valid fresh).careful caller
      (Ends (fun retained _ => retained.Sublist slots ∧
        ∀ slot ∈ slots, slot ∈ retained ∨ app.ReleasedBy (honest caller.2) now slot)
      fun error _ => error = .invalidStoredResult) (app.retainSlots now slots) w := by
  induction slots generalizing w with
  | nil => exact safe_done [] fun _ _ _ => ⟨List.Sublist.refl [], by simp⟩
  | cons slot later ih =>
      have released : ∀ w, Safe (appMachine name honest starts) (relyOn valid fresh).careful caller
          (Ends (fun isReleased _ =>
            isReleased = true → app.ReleasedBy (honest caller.2) now slot)
          fun error _ => error = .invalidStoredResult) (app.isReleased now slot) w := by
        intro w
        unfold App.isReleased App.ReleasedBy
        split
        · exact safe_done _ fun _ _ _ passed => by simpa using passed
        · exact safe_canReleaseReservation _ _ _
      refine (safe_failIf _ _).bindEnds fun _ _ _ _ _ => ?_
      refine (released _).bindEnds fun isReleased _ _ _ why => ?_
      refine ih.bindEnds fun retained _ _ _ kept => ?_
      apply safe_done
      intro _ _ _
      cases isReleased with
      | true =>
          refine ⟨kept.1.cons slot, ?_⟩
          intro other member
          rcases List.mem_cons.mp member with same | inLater
          · exact .inr (same ▸ why rfl)
          · exact kept.2 other inLater
      | false =>
          refine ⟨kept.1.cons_cons slot, ?_⟩
          intro other member
          rcases List.mem_cons.mp member with same | inLater
          · exact .inl (same ▸ List.mem_cons_self)
          · exact (kept.2 other inLater).imp_left (List.mem_cons_of_mem slot)

theorem safe_readLedger {moment : World B β} :
    Safe (appMachine name honest starts) (relyOn valid fresh).careful caller
      (Ends (fun ledger _ => ledger = app.ledgerIn moment)
        fun error _ => error = .invalidStoredResult)
      (app.readLedger (moment.current .admission)) w := by
  unfold App.readLedger App.ledgerIn
  cases moment.current .admission with
  | none => exact safe_done _ fun _ _ _ => rfl
  | some object =>
      cases parsed : app.serde.parseLedger object.bytes with
      | none =>
          simp only [orFail, parsed]
          exact safe_failWith _ fun _ _ _ => rfl
      | some ledger =>
          simp only [orFail, parsed]
          exact safe_done _ fun _ _ _ => by simp [parsed]

/-- Whatever cleanup found, the ledger written is one the call may write. -/
theorem admits_next {call : Reservation} {before : AdmissionLedger} {now : Nat}
    {retained : List WorkerReservation} {released : Nat → WorkerReservation → Prop}
    (cleanup : Cleanup released before now retained)
    (noSlot : ∀ slot ∈ before.reservations, slot.jobId ≠ call.jobId) :
    Admits app.admission released call before
      (if App.isDenied app.admission retained (App.retainedStarts now before.starts) then
        App.cleanedLedger now retained (App.retainedStarts now before.starts)
      else App.chargedLedger now retained (App.retainedStarts now before.starts) call.jobId
        call.launchUntil) := by
  split
  · exact .cleaned now retained cleanup noSlot
  · rename_i free
    exact .charged now retained cleanup noSlot free

theorem observedAt_next (call : Reservation) (now : Nat) (retained : List WorkerReservation)
    (starts : List Nat) :
    (if App.isDenied app.admission retained starts then App.cleanedLedger now retained starts
      else App.chargedLedger now retained starts call.jobId call.launchUntil).observedAt = now := by
  split <;> rfl

/-- A call writes only ledgers it may write; it succeeds only after its slot was in the
ledger, and is denied only while it was not. -/
theorem safe_reserveLoop [DecidableEq β] (call : Reservation) (attempts : Nat)
    (keeps : ∀ moment next, Since fresh caller w moment → valid moment →
      ClockRead (honest caller.2) w moment next.observedAt →
      Admits app.admission (app.ReleasedBy (honest caller.2)) call (app.ledgerIn moment) next →
      valid (moment.write (name caller) .admission (app.serde.ledgerBytes next)) ∧
        (fresh caller moment → fresh caller
          (moment.write (name caller) .admission (app.serde.ledgerBytes next)))) :
    Safe (appMachine name honest starts) (relyOn valid fresh).careful caller
      (Ends (fun _ current => app.SlotSeen valid call w current)
        fun error current => error = .admissionLimited → Plain (honest caller.2) →
          app.DenialSeen valid (honest caller.2) call w current)
      (app.reserveLoop call.jobId call.launchUntil attempts) w := by
  -- every other error is not a denial
  have other : ∀ {error : ServiceError} {seen : Prop} (found : ServiceError),
      error = found → found ≠ .admissionLimited → error = .admissionLimited → seen :=
    fun found same differs denied => absurd (same ▸ denied) differs
  induction attempts generalizing w with
  | zero => exact safe_failWith _ fun _ _ _ denied _ => other _ rfl (by decide) denied
  | succ attempts ih =>
      unfold App.reserveLoop
      refine (safe_getVersioned _ _).endsOf (fun _ _ _ found => found) ?unread |>.bindEnds ?_
      case unread =>
        intro error _ _ unread denied plain
        obtain ⟨moment, honestly⟩ := unread
        exact absurd (denied ▸ honestly) ((plain moment).1 _ _)
      intro current w1 since1 _ read
      obtain ⟨moment, during, found, -⟩ := read
      subst found
      refine safe_readLedger.endsOf (fun _ _ _ same => same)
        (fun _ _ _ same denied _ => other _ same (by decide) denied) |>.bindEnds ?_
      intro ledger w2 since2 _ same
      subst same
      refine (safe_failIf _ _).endsOf (fun _ _ _ passes => passes)
        (fun _ _ _ same denied _ => other _ same (by decide) denied) |>.bindEnds ?_
      intro _ w3 since3 _ _
      refine safe_clock.bindEnds ?_
      intro now w4 since4 _ clockRead
      refine (safe_failIf _ _).endsOf (fun _ _ _ passes => passes)
        (fun _ _ _ same denied _ => other _ same (by decide) denied) |>.bindEnds ?_
      intro _ w5 since5 _ timely
      have sinceStart : Since fresh caller w w5 :=
        since1.trans (since2.trans (since3.trans (since4.trans since5)))
      have fromRead : Grows moment w5 := during.before.trans
        (since2.grows.trans (since3.grows.trans (since4.grows.trans since5.grows)))
      have clockReadAt : ClockRead (honest caller.2) w w5 now := by
        obtain ⟨atClock, duringClock, honestly⟩ := clockRead
        exact ⟨atClock, since1.grows.trans (since2.grows.trans (since3.grows.trans
          duringClock.after)), duringClock.before.trans since5.grows, honestly⟩
      cases found : (app.ledgerIn moment).reservations.find? fun slot =>
          slot.jobId == call.jobId with
      | some slot =>
          simp only
          split
          · rename_i sameDeadline
            apply safe_done
            intro current grown _
            refine ⟨moment, ⟨during.after, during.holds, fromRead.trans grown.grows⟩, slot,
              List.mem_of_find?_eq_some found, ?_, sameDeadline⟩
            simpa using List.find?_some found
          · exact safe_failWith _ fun _ _ _ denied _ => other _ rfl (by decide) denied
      | none =>
          refine (safe_retainSlots _ _).endsOf (fun _ _ _ kept => kept)
            (fun _ _ _ same denied _ => other _ same (by decide) denied) |>.bindEnds ?_
          intro retained w6 since6 _ kept
          have noSlot : ∀ slot ∈ (app.ledgerIn moment).reservations, slot.jobId ≠ call.jobId := by
            intro slot member same
            simpa [same] using List.find?_eq_none.mp found slot member
          simp only [not_or, not_exists, not_and, not_lt] at timely
          have cleanup : Cleanup (app.ReleasedBy (honest caller.2)) (app.ledgerIn moment) now
              retained :=
            ⟨timely.2.1, fun started member => timely.2.2 started member, kept.1, kept.2⟩
          have admits : Admits app.admission (app.ReleasedBy (honest caller.2)) call
              (app.ledgerIn moment) _ := admits_next cleanup noSlot
          refine (safe_compareExchange _ _ _ ?writes).endsOf (fun _ _ _ swaps => swaps) ?lost
            |>.bindEnds ?_
          case writes =>
            intro atSwap since7 holds isAt _
            have sinceRead : Grows moment atSwap :=
              fromRead.trans (since6.grows.trans since7.grows)
            have same := app.ledgerIn_eq_of_isAt sinceRead isAt
            refine keeps atSwap _ (sinceStart.trans (since6.trans since7)) holds ?_ (same ▸ admits)
            rw [observedAt_next]
            exact clockReadAt.until (since6.grows.trans since7.grows)
          case lost =>
            intro error _ _ lost denied plain
            obtain ⟨atSwap, honestly⟩ := lost
            exact absurd (denied ▸ honestly) ((plain atSwap).2 _ _ _)
          intro swapped w7 since7 _ swaps
          cases swapped with
          | false =>
              have sinceHere := sinceStart.trans (since6.trans since7)
              refine (ih fun atSwap next later holds clockRead admits => ?_).endsOf
                (fun _ _ _ seen => seen.since sinceHere.grows)
                fun _ _ _ seen denied plain => (seen denied plain).since sinceHere.grows
              exact keeps atSwap next (sinceHere.trans later) holds
                (clockRead.since sinceHere.grows) admits
          | true =>
              obtain ⟨atSwap, sinceSwap, holds, isAt, holdsAfter, after⟩ := swaps rfl
              have sinceRead : Grows moment atSwap :=
                fromRead.trans (since6.grows.trans sinceSwap.grows)
              have sinceHere := sinceStart.trans (since6.trans sinceSwap)
              simp only [if_true]
              split
              · apply safe_failWith
                intro current grown _ _ _
                refine ⟨atSwap, now, ⟨sinceHere.grows, holds, ?_⟩, ?_, ?_⟩
                · exact (grows_write _ _).trans (after.trans grown.grows)
                · exact clockReadAt.until (since6.grows.trans sinceSwap.grows)
                · rw [app.ledgerIn_eq_of_isAt sinceRead isAt]
                  exact ⟨timely.2.1, noSlot⟩
              · rename_i free
                apply safe_done
                intro current grown _
                refine ⟨_, ⟨sinceHere.grows.trans (grows_write _ _), holdsAfter,
                  after.trans grown.grows⟩, ⟨call.jobId, call.launchUntil, some now⟩, ?_, rfl, rfl⟩
                rw [app.ledgerIn_write, if_neg free]
                simp [App.chargedLedger]

end Calls

end Usd8Core.JobApi
