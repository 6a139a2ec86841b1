import Usd8Core.JobApi.App
import Usd8Core.Lib.RateWindow

/-!
# The admission ledger

Reservations of any number of invocations go through one ledger object.  Each of its
revisions follows from the one before by a single admission or denial, so its charges
obey the hourly limit in every window and its slots the limit of active workers.
-/

set_option autoImplicit false

namespace Usd8Core.JobApi

open Usd8Core.Lib.ByteWords
open Usd8Core.Lib.Interleaving
open Usd8Core.Lib.RateWindow

/-! ## The history of the ledger -/

/-- A revision of the ledger with the call that wrote it and the ledger before it. -/
structure Commit (A : Type) where
  writer : A
  before : AdmissionLedger
  after : AdmissionLedger

def commits {A : Type} : AdmissionLedger → List (A × AdmissionLedger) → List (Commit A)
  | _, [] => []
  | before, (writer, after) :: later => ⟨writer, before, after⟩ :: commits after later

/-- The starts a commit adds to those it keeps. -/
def Commit.newStarts {A : Type} (commit : Commit A) : List Nat :=
  commit.after.starts.drop
    (App.retainedStarts commit.after.observedAt commit.before.starts).length

/-- The slots a commit adds. -/
def Commit.AddsReservation {A : Type} (commit : Commit A) : Prop :=
  ∃ slot ∈ commit.after.reservations, slot ∉ commit.before.reservations

/-- The ledger as the last revision left it. -/
def ledgerOf {A : Type} (history : List (A × AdmissionLedger)) : AdmissionLedger :=
  (history.getLast?.map Prod.snd).getD AdmissionLedger.empty

/-- The start times of all charges, in the order of the revisions. -/
def charges {A : Type} (history : List (A × AdmissionLedger)) : List Nat :=
  (commits AdmissionLedger.empty history).flatMap Commit.newStarts

section Histories

variable {A : Type} {history : List (A × AdmissionLedger)}

theorem commits_append (before : AdmissionLedger) (writer : A) (after : AdmissionLedger) :
    commits before (history ++ [(writer, after)]) =
      commits before history ++
        [⟨writer, (history.getLast?.map Prod.snd).getD before, after⟩] := by
  induction history generalizing before with
  | nil => rfl
  | cons first later ih =>
      obtain ⟨firstWriter, firstAfter⟩ := first
      rw [List.cons_append, commits, ih, commits, List.cons_append]
      cases later with
      | nil => rfl
      | cons second rest => simp [List.getLast?_cons]

@[simp] theorem ledgerOf_append (writer : A) (after : AdmissionLedger) :
    ledgerOf (history ++ [(writer, after)]) = after := by
  simp [ledgerOf]

theorem charges_append (writer : A) (after : AdmissionLedger) :
    charges (history ++ [(writer, after)]) =
      charges history ++ (Commit.mk writer (ledgerOf history) after).newStarts := by
  rw [charges, commits_append, List.flatMap_append, List.flatMap_singleton]
  rfl

end Histories

/-! ## What one commit does -/

/-- A reservation call. -/
structure Reservation where
  jobId : String
  launchUntil : Nat
  deriving DecidableEq

/-- What cleanup at `now` keeps; a slot it drops has been released. -/
structure Cleanup (released : Nat → WorkerReservation → Prop) (before : AdmissionLedger)
    (now : Nat) (retained : List WorkerReservation) : Prop where
  later : before.observedAt ≤ now
  past : ∀ started ∈ before.starts, started ≤ now
  kept : retained.Sublist before.reservations
  gone : ∀ slot ∈ before.reservations, slot ∈ retained ∨ released now slot

/-- How the ledger may change under a call of `writer`. -/
inductive Admits (policy : AdmissionPolicy) (released : Nat → WorkerReservation → Prop)
    (writer : Reservation) (before : AdmissionLedger) : AdmissionLedger → Prop
  | cleaned (now : Nat) (retained : List WorkerReservation)
      (cleanup : Cleanup released before now retained)
      (noSlot : ∀ slot ∈ before.reservations, slot.jobId ≠ writer.jobId) :
      Admits policy released writer before
        (App.cleanedLedger now retained (App.retainedStarts now before.starts))
  | charged (now : Nat) (retained : List WorkerReservation)
      (cleanup : Cleanup released before now retained)
      (noSlot : ∀ slot ∈ before.reservations, slot.jobId ≠ writer.jobId)
      (free : ¬ App.isDenied policy retained (App.retainedStarts now before.starts)) :
      Admits policy released writer before
        (App.chargedLedger now retained (App.retainedStarts now before.starts) writer.jobId
          writer.launchUntil)

/-- A history in which every revision follows from the one before. -/
inductive Committed (policy : AdmissionPolicy) : List (Reservation × AdmissionLedger) → Prop
  | nil : Committed policy []
  | snoc (history : List (Reservation × AdmissionLedger)) (writer : Reservation)
      (after : AdmissionLedger) (earlier : Committed policy history)
      (admits : Admits policy (fun _ _ => True) writer (ledgerOf history) after) :
      Committed policy (history ++ [(writer, after)])

section Commits

variable {policy : AdmissionPolicy} {released : Nat → WorkerReservation → Prop}
  {writer : Reservation} {before after : AdmissionLedger}
  {history : List (Reservation × AdmissionLedger)}

theorem retainedStarts_eq_recent {now : Nat} {starts : List Nat}
    (past : ∀ started ∈ starts, started ≤ now) :
    App.retainedStarts now starts = recent 3600 now starts := by
  rw [App.retainedStarts, recent]
  apply List.filter_congr
  intro started member
  have notFuture := past started member
  rw [Bool.eq_iff_iff]
  simp only [decide_eq_true_eq]
  omega

/-- The rules of a call, whatever let cleanup drop slots. -/
theorem Admits.forget (admits : Admits policy released writer before after) :
    Admits policy (fun _ _ => True) writer before after := by
  have forgotten : ∀ {now retained}, Cleanup released before now retained →
      Cleanup (fun _ _ => True) before now retained := fun cleanup =>
    ⟨cleanup.later, cleanup.past, cleanup.kept, fun _ _ => .inr trivial⟩
  cases admits with
  | cleaned now retained cleanup noSlot => exact .cleaned now retained (forgotten cleanup) noSlot
  | charged now retained cleanup noSlot free =>
      exact .charged now retained (forgotten cleanup) noSlot free

/-- A commit adds one charge at the time it observed, or none. -/
theorem Admits.newStarts (admits : Admits policy released writer before after) :
    (Commit.mk writer before after).newStarts = [] ∨
      ((Commit.mk writer before after).newStarts = [after.observedAt] ∧
        (∀ slot ∈ before.reservations, slot.jobId ≠ writer.jobId) ∧
        (App.retainedStarts after.observedAt before.starts).length < policy.maxStartsPerHour) := by
  cases admits with
  | cleaned now retained cleanup noSlot =>
      left
      simp [Commit.newStarts, App.cleanedLedger]
  | charged now retained cleanup noSlot free =>
      right
      refine ⟨by simp [Commit.newStarts, App.chargedLedger], noSlot, ?_⟩
      simp only [App.isDenied, not_or, not_le] at free
      exact free.2.1

theorem Admits.starts (admits : Admits policy released writer before after) :
    after.starts = recent 3600 after.observedAt before.starts ++
        (Commit.mk writer before after).newStarts ∧
      before.observedAt ≤ after.observedAt ∧
      ∀ started ∈ before.starts, started ≤ after.observedAt := by
  cases admits with
  | cleaned now retained cleanup noSlot =>
      refine ⟨?_, cleanup.later, cleanup.past⟩
      simp [Commit.newStarts, App.cleanedLedger, retainedStarts_eq_recent cleanup.past]
  | charged now retained cleanup noSlot free =>
      refine ⟨?_, cleanup.later, cleanup.past⟩
      simp [Commit.newStarts, App.chargedLedger, retainedStarts_eq_recent cleanup.past]

theorem Admits.bounded (admits : Admits policy released writer before after)
    (limited : 0 < policy.maxActiveWorkers)
    (adds : (Commit.mk writer before after).AddsReservation) :
    after.reservations.length ≤ policy.maxActiveWorkers := by
  cases admits with
  | cleaned now retained cleanup noSlot =>
      obtain ⟨slot, member, fresh⟩ := adds
      exact absurd (cleanup.kept.subset member) fresh
  | charged now retained cleanup noSlot free =>
      simp only [App.isDenied, not_or, not_and, not_le] at free
      have below := free.1 limited
      simp only [App.chargedLedger, List.length_append, List.length_singleton]
      omega

/-- The ledger holds exactly the charges that are still recent. -/
structure LedgerInvariant (policy : AdmissionPolicy)
    (history : List (Reservation × AdmissionLedger)) : Prop where
  starts : (ledgerOf history).starts =
    recent 3600 (ledgerOf history).observedAt (charges history)
  past : ∀ started ∈ charges history, started ≤ (ledgerOf history).observedAt
  admitted : Admitted 3600 policy.maxStartsPerHour (charges history)

theorem Committed.invariant (committed : Committed policy history) :
    LedgerInvariant policy history := by
  induction committed with
  | nil => exact ⟨rfl, by simp [charges, commits], .nil⟩
  | snoc history writer after earlier admits ih =>
      obtain ⟨startsEq, later, pastStarts⟩ := admits.starts
      have allPast : ∀ started ∈ charges history, started ≤ after.observedAt :=
        fun started member => (ih.past started member).trans later
      have keptEq : recent 3600 after.observedAt (ledgerOf history).starts =
          recent 3600 after.observedAt (charges history) := by
        rw [ih.starts, recent_recent _ _ later]
      rw [keptEq] at startsEq
      rcases admits.newStarts with noCharge | ⟨charge, -, free⟩
      · rw [noCharge, List.append_nil] at startsEq
        refine ⟨?_, ?_, ?_⟩
        · rw [ledgerOf_append, charges_append, noCharge, List.append_nil]
          exact startsEq
        · rw [ledgerOf_append, charges_append, noCharge, List.append_nil]
          exact allPast
        · rw [charges_append, noCharge, List.append_nil]
          exact ih.admitted
      · rw [charge] at startsEq
        refine ⟨?_, ?_, ?_⟩
        · rw [ledgerOf_append, charges_append, charge, startsEq, recent_append]
          simp [recent]
        · rw [ledgerOf_append, charges_append, charge]
          intro started member
          rcases List.mem_append.mp member with old | new
          · exact allPast started old
          · exact le_of_eq (List.mem_singleton.mp new)
        · rw [charges_append, charge]
          apply Admitted.snoc _ _ ih.admitted allPast
          rw [retainedStarts_eq_recent pastStarts, keptEq] at free
          exact free

/-- Every commit of the history is one an invocation may make. -/
theorem Committed.admits (committed : Committed policy history)
    (commit : Commit Reservation) (member : commit ∈ commits AdmissionLedger.empty history) :
    Admits policy (fun _ _ => True) commit.writer commit.before commit.after := by
  induction committed with
  | nil => cases member
  | snoc history writer after earlier admits ih =>
      rw [commits_append] at member
      rcases List.mem_append.mp member with old | new
      · exact ih old
      · rw [List.mem_singleton.mp new]
        exact admits

end Commits

end Usd8Core.JobApi
