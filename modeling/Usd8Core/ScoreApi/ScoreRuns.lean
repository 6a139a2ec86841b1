import Usd8Core.ScoreApi.CalculateInner

/-!
# Calculations in any order

What a calculation saves was computed from what it read, and its request says at which
version.  So whatever the interleaving, each save goes on from the one before.
-/

set_option autoImplicit false

namespace Usd8Core.ScoreApi

open Usd8Core.Engine (BlockAnchor)
open Usd8Core.Lib.CheckedCall
open Usd8Core.Lib.EventLog
open Usd8Core.Lib.Interleaving

variable {C S : Type} {serde : PayloadSerde C S} {policy : WorkPolicy} {caller : Caller Bool}
  {log later : TableLog C S}

/-! ## Requests -/

section Requests

/-- A request whose every outcome is legal, and right as far as it is reported. -/
theorem safe_call (op : ScoreOp C) {post : Answer S op → TableLog C S → Prop}
    (served : ∀ current reply after, log <+: current → TableLegal serde current →
      Serves current op reply after → TableLegal serde after ∧ current <+: after ∧
        ∀ answer, reply = .ok answer → ∀ later, after <+: later → post answer later) :
    Safe (scoreMachine serde policy) (tableRely serde) caller (OnOk post) (call op) log := by
  intro current reply after since legal serves
  obtain ⟨legalAfter, grows, right⟩ := served current reply after since legal serves
  refine ⟨legalAfter, grows, safe_ofExcept_of reply ?_ fun _ _ _ _ _ => trivial⟩
  exact fun answer later isAnswer rest _ => right answer isAnswer later rest

/-- The requests that leave the table alone. -/
def ScoreOp.IsQuestion : ScoreOp C → Prop
  | .acquire _ | .save _ | .compute _ _ => False
  | _ => True

theorem safe_question (op : ScoreOp C) (question : op.IsQuestion) :
    Safe (scoreMachine serde policy) (tableRely serde) caller (OnOk fun _ _ => True)
      (call op : ScoreProgram C S _) log := by
  refine safe_call op fun current reply after _ legal serves => ?_
  cases serves with
  | computed | notComputed | acquired | notAcquired | saved | notSaved => exact question.elim
  | failed | clock | loaded | budget | finalized | found | existed | block =>
      exact ⟨legal, List.prefix_rfl, fun _ _ _ _ => trivial⟩

/-- The stored checkpoint is one that was saved, at its version. -/
def Held (serde : PayloadSerde C S) (log : TableLog C S)
    (stored : Option (StoredCheckpoint C S)) : Prop :=
  ∀ value, stored = some value → ∃ saved, .saved saved ∈ log ∧ saved.version = value.version ∧
    storedCheckpoint serde saved.payload = some value.checkpoint

theorem Held.mono {stored : Option (StoredCheckpoint C S)} (held : Held serde log stored)
    (grown : log <+: later) : Held serde later stored := by
  intro value isStored
  obtain ⟨saved, member, rest⟩ := held value isStored
  exact ⟨saved, grown.subset member, rest⟩

theorem storedOf_held {stored : Option (StoredCheckpoint C S)}
    (read : storedOf serde (rowOf log) = .ok stored) : Held serde log stored := by
  rintro value rfl
  unfold storedOf at read
  cases held : (rowOf log).payload with
  | none =>
      rw [held] at read
      cases (pure_ok_iff _ _).mp read
  | some payload =>
      rw [held] at read
      obtain ⟨_, -, read⟩ := (bind_ok_iff _ _ _).mp read
      obtain ⟨version, isVersion, read⟩ := (bind_ok_iff _ _ _).mp read
      obtain ⟨persisted, decoded, read⟩ := (bind_ok_iff _ _ _).mp read
      cases (pure_ok_iff _ _).mp read
      have row := rowOf_lastSave log
      rw [(orRevert_ok_iff _ _ _).mp isVersion, held] at row
      obtain ⟨last, isLast, version⟩ := Option.map_eq_some_iff.mp row.1.symm
      have payload := row.2
      rw [isLast] at payload
      refine ⟨last, mem_savesOf.mp (List.mem_of_getLast? isLast), version, ?_⟩
      rw [← Option.some.inj payload, storedCheckpoint, (orRevert_ok_iff _ _ _).mp decoded]
      rfl

theorem safe_load :
    Safe (scoreMachine serde policy) (tableRely serde) caller
      (OnOk fun stored later => Held serde later stored) (load serde) log := by
  have read : Safe (scoreMachine serde policy) (tableRely serde) caller
      (OnOk fun row later => ∃ moment : TableLog C S, moment <+: later ∧ row = rowOf moment)
      (call .load : ScoreProgram C S _) log := by
    refine safe_call .load fun current reply after _ legal serves => ?_
    cases serves with
    | failed => exact ⟨legal, List.prefix_rfl, fun _ impossible => by cases impossible⟩
    | loaded =>
        refine ⟨legal, List.prefix_rfl, fun row isRow later rest => ⟨current, rest, ?_⟩⟩
        exact (Except.ok.inj isRow).symm
  refine read.bindOk fun row seen _ _ found => ?_
  obtain ⟨moment, older, rfl⟩ := found
  refine safe_ofExcept_of _ (fun stored current isStored rest _ => ?_) fun _ _ _ _ _ => trivial
  exact (storedOf_held isStored).mono (older.trans rest)

theorem safe_compute (reference : BlockAnchor) (previous : Option C) :
    Safe (scoreMachine serde policy) (tableRely serde) caller
      (OnOk fun result later => ∀ snapshot checkpoint, result = .ok (snapshot, checkpoint) →
        .computed ⟨previous, snapshot, checkpoint⟩ ∈ later)
      (call (.compute reference previous) : ScoreProgram C S _) log := by
  refine safe_call (.compute reference previous) fun current reply after _ legal serves => ?_
  cases serves with
  | failed => exact ⟨legal, List.prefix_rfl, fun _ impossible => by cases impossible⟩
  | computed _ _ snapshot checkpoint =>
      refine ⟨.snoc _ _ legal (.computed _), List.prefix_append _ _, ?_⟩
      rintro _ ⟨⟩ later rest _ _ ⟨⟩
      exact rest.subset (by simp)
  | notComputed =>
      refine ⟨legal, List.prefix_rfl, ?_⟩
      rintro _ ⟨⟩ _ _ _ _ ⟨⟩

theorem safe_acquire (epoch now : Nat) (expected : Option Nat) :
    Safe (scoreMachine serde policy) (tableRely serde) caller (OnOk fun _ _ => True)
      (acquire policy epoch expected now : ScoreProgram C S _) log := by
  have asked (request : AcquireRequest) : Safe (scoreMachine serde policy) (tableRely serde) caller
      (OnOk fun _ _ => True) (call (.acquire request) : ScoreProgram C S _) log := by
    refine safe_call (.acquire request) fun current reply after _ legal serves => ?_
    have sent : TableLegal serde (current ++ [.sent (.acquire request)]) :=
      .snoc _ _ legal (.sentAcquire request)
    cases serves with
    | failed => exact ⟨legal, List.prefix_rfl, fun _ _ _ _ => trivial⟩
    | notAcquired => exact ⟨sent, List.prefix_append _ _, fun _ _ _ _ => trivial⟩
    | acquired _ admits =>
        have row : rowOf (current ++ [.sent (.acquire request)]) = rowOf current := rowOf_snoc _ _
        have allowed : Allows serde (current ++ [.sent (.acquire request)])
            (.acquired request ((rowOf (current ++ [.sent (.acquire request)])).generation.getD 0
              + 1)) :=
          .acquired request (by simp) (by rw [row]; exact admits)
        rw [row] at allowed
        refine ⟨.snoc _ _ sent allowed, ?_, fun _ _ _ _ => trivial⟩
        rw [List.append_assoc]
        exact List.prefix_append _ _
  refine (asked _).bindOk fun lease _ _ _ _ => ?_
  cases lease with
  | none => exact safe_done _ fun _ _ _ => trivial
  | some generation =>
      refine (safe_failIf _ _).forget.bindOk fun _ _ _ _ _ => ?_
      exact safe_done _ fun _ _ _ => trivial

/-- A save whose request is justified when it is sent. -/
theorem safe_saveRequest (request : SaveRequest) (result : Computed C S)
    (justified : Justified serde log request result) :
    Safe (scoreMachine serde policy) (tableRely serde) caller (OnOk fun _ _ => True)
      (call (.save request) : ScoreProgram C S _) log := by
  refine safe_call (.save request) fun current reply after since legal serves => ?_
  have sent : TableLegal serde (current ++ [.sent (.save request)]) :=
    .snoc _ _ legal (.sentSave request result (justified.mono since))
  cases serves with
  | failed => exact ⟨legal, List.prefix_rfl, fun _ _ _ _ => trivial⟩
  | notSaved => exact ⟨sent, List.prefix_append _ _, fun _ _ _ _ => trivial⟩
  | saved _ accepts =>
      have row : rowOf (current ++ [.sent (.save request)]) = rowOf current := rowOf_snoc _ _
      refine ⟨.snoc _ _ sent (.saved request (by simp) (by rw [row]; exact accepts)), ?_,
        fun _ _ _ _ => trivial⟩
      rw [List.append_assoc]
      exact List.prefix_append _ _

end Requests

/-! ## A calculation -/

section Calculations

variable {forceRefresh : Bool} {now epoch generation : Nat}
  {stored : Option (StoredCheckpoint C S)}

theorem safe_referenceBlock (finalized : BlockAnchor) :
    Safe (scoreMachine serde policy) (tableRely serde) caller (OnOk fun _ _ => True)
      (referenceBlock forceRefresh epoch finalized : ScoreProgram C S _) log := by
  unfold referenceBlock
  split
  · exact safe_done _ fun _ _ _ => trivial
  · refine (safe_question (.blockAtOrBeforeTimestamp _ _) trivial).bindOk fun number _ _ _ _ => ?_
    refine (safe_question (.registryExistedAt _) trivial).bindOk fun existed _ _ _ _ => ?_
    split
    · exact safe_question (.blockByNumber _) trivial
    · exact safe_done _ fun _ _ _ => trivial

/-- What the computation started from is the stored checkpoint or nothing. -/
theorem safe_computeScore (reference : BlockAnchor) :
    Safe (scoreMachine serde policy) (tableRely serde) caller
      (OnOk fun value later => ∃ result : Computed C S, .computed result ∈ later ∧
        result.snapshot = value.1 ∧ result.checkpoint = value.2 ∧
        (result.previous = none ∨ result.previous = stored.map StoredCheckpoint.checkpoint))
      (computeScore stored reference) log := by
  refine (safe_compute reference _).bindOk fun computed _ _ _ first => ?_
  cases computed with
  | ok value =>
      refine safe_done value fun later rest _ => ?_
      exact ⟨_, rest.subset (first value.1 value.2 rfl), rfl, rfl, .inr rfl⟩
  | error error =>
      simp only
      split
      · refine (safe_compute reference none).bindOk fun cold _ _ _ second => ?_
        refine safe_ofExcept_of _ (fun value later isValue rest _ => ?_) fun _ _ _ _ _ => trivial
        cases cold with
        | error error => cases isValue
        | ok result =>
            cases isValue
            exact ⟨_, rest.subset (second value.1 value.2 rfl), rfl, rfl, .inl rfl⟩
      · exact safe_fail _

theorem safe_saveScore (held : Held serde log stored) {snapshot : CachedInsuranceScoreSnapshot S}
    {checkpoint : C} (computed : ∃ result : Computed C S, .computed result ∈ log ∧
      result.snapshot = snapshot ∧ result.checkpoint = checkpoint ∧
      (result.previous = none ∨ result.previous = stored.map StoredCheckpoint.checkpoint)) :
    Safe (scoreMachine serde policy) (tableRely serde) caller (OnOk fun _ _ => True)
      (saveScore serde forceRefresh now epoch generation stored snapshot checkpoint) log := by
  obtain ⟨result, member, rfl, rfl, previous⟩ := computed
  refine (safe_ofExcept _).forget.bindOk fun cursorBlock log1 since1 _ _ => ?_
  have saved : Safe (scoreMachine serde policy) (tableRely serde) caller (OnOk fun _ _ => True)
      (save serde result.checkpoint result.snapshot epoch cursorBlock
        (stored.map StoredCheckpoint.version) (if forceRefresh then some now else none) generation)
      log1 := by
    refine (safe_failIf _ _).forget.bindOk fun _ log2 since2 _ _ => ?_
    refine (safe_failIf _ _).forget.bindOk fun _ log3 since3 _ _ => ?_
    refine (safe_question .clock trivial).bindOk fun saveNow log4 since4 _ _ => ?_
    have since := ((since1.trans since2).trans since3).trans since4
    refine safe_saveRequest _ result ⟨since.subset member, rfl, rfl, ?_⟩
    rcases previous with cold | resumed
    · exact .inl cold
    · cases isStored : stored with
      | none => exact .inl (by rw [resumed, isStored]; rfl)
      | some value =>
          obtain ⟨earlier, saved, version, checkpoint⟩ := held value isStored
          refine .inr ⟨earlier, since.subset saved, by simp [version], ?_⟩
          rw [checkpoint, resumed, isStored]
          rfl
  refine saved.bindOk fun isSaved _ _ _ _ => ?_
  split
  · exact safe_done _ fun _ _ _ => trivial
  · exact safe_load.bindOk fun latest _ _ _ _ => (safe_ofExcept _).forget

theorem safe_calculateLeased (held : Held serde log stored) :
    Safe (scoreMachine serde policy) (tableRely serde) caller (OnOk fun _ _ => True)
      (calculateLeased serde policy forceRefresh now epoch generation stored) log := by
  refine (safe_question .clock trivial).bindOk fun budgetNow log1 since1 _ _ => ?_
  refine (safe_question (.reserveBudget _) trivial).bindOk fun reserved log2 since2 _ _ => ?_
  split
  · exact (safe_ofExcept _).forget
  · refine (safe_question .finalizedBlock trivial).bindOk fun finalized log3 since3 _ _ => ?_
    split
    · exact (safe_ofExcept _).forget
    · refine (safe_referenceBlock finalized).bindOk fun reference log4 since4 _ _ => ?_
      refine (safe_computeScore reference).bindOk fun value log5 since5 _ computed => ?_
      have since := (((since1.trans since2).trans since3).trans since4).trans since5
      exact safe_saveScore (held.mono since) computed

theorem safe_calculateInner (log : TableLog C S) :
    Safe (scoreMachine serde policy) (tableRely serde) caller (OnOk fun _ _ => True)
      (calculateInner serde policy forceRefresh) log := by
  refine (safe_question .clock trivial).bindOk fun now _ _ _ _ => ?_
  refine (safe_ofExcept _).forget.bindOk fun epoch _ _ _ _ => ?_
  refine safe_load.bindOk fun stored log1 _ _ held => ?_
  split
  · exact safe_done _ fun _ _ _ => trivial
  · refine (safe_acquire epoch now _).bindOk fun lease log2 since2 _ _ => ?_
    cases lease with
    | some generation => exact safe_calculateLeased (held.mono since2)
    | none => exact safe_load.bindOk fun latest _ _ _ _ => (safe_ofExcept _).forget

end Calculations

/-! ## Every interleaving -/

theorem scoreMachine_respects (serde : PayloadSerde C S) (policy : WorkPolicy) :
    Respects (scoreMachine serde policy) (tableRely serde) fun _ => OnOk fun _ _ => True where
  starts log number forceRefresh program _ _ started := by
    cases started
    exact safe_calculateInner log
  serves _ _ grows := grows
  drifts log after legal delivered := by
    cases delivered with
    | acquired request sent admits =>
        exact ⟨.snoc _ _ legal (.acquired request sent admits), fun _ => List.prefix_append _ _⟩
    | saved request sent accepts =>
        exact ⟨.snoc _ _ legal (.saved request sent accepts), fun _ => List.prefix_append _ _⟩

/-- In every interleaving each save goes on from the one before, under the newest lease and as
the first under it. -/
theorem score_saves_chain (serde : PayloadSerde C S) (policy : WorkPolicy)
    (config : Config (TableLog C S) Bool (ScoreOp C) (ScoreReply S) ScoreFailure
      (CalculatedScore S))
    (steps : Steps (scoreMachine serde policy) ⟨[], []⟩ config) (before : TableLog C S)
    (request : SaveRequest) (occurs : Occurs config.world before (.saved request)) :
    Chained serde before request := by
  have safe := steps_allSafe (scoreMachine_respects serde policy)
    (allSafe_nil Legal.nil fun _ => trivial) steps
  exact TableLegal.chained safe.valid occurs

namespace SampleScores

/-! Two calculations on two days, each request answered at once. -/

def snapshot : CachedInsuranceScoreSnapshot Unit := ⟨3, "7", "1", "fresh", ()⟩

/-- A checkpoint is a number, and a text has a mark for each of it and of the day. -/
def sampleSerde : PayloadSerde Nat Unit where
  text value := String.ofList (List.replicate value.checkpoint 'x' ++
    List.replicate (value.snapshotEpoch.getD 0 / 86400) 'd')
  persisted text := some ⟨text.toList.count 'x', some snapshot, some (text.toList.count 'd' * 86400)⟩
  value _ := none
  checkpoint _ := none

def samplePolicy : WorkPolicy := ⟨30, 30, 60⟩

def time (log : TableLog Nat Unit) : Nat := 172800 + 86400 * (savesOf log).length

def block (log : TableLog Nat Unit) : BlockAnchor := ⟨7, .zero, time log⟩

def answer (log : TableLog Nat Unit) (op : ScoreOp Nat) : ScoreReply Unit op × TableLog Nat Unit :=
  match op with
  | .clock => (.ok (time log), log)
  | .load => (.ok (rowOf log), log)
  | .acquire request =>
      if (rowOf log).admits request then
        (.ok (some ((rowOf log).generation.getD 0 + 1)),
          log ++ [.sent (.acquire request)] ++
            [.acquired request ((rowOf log).generation.getD 0 + 1)])
      else (.ok none, log ++ [.sent (.acquire request)])
  | .reserveBudget _ => (.ok true, log)
  | .finalizedBlock => (.ok (block log), log)
  | .blockAtOrBeforeTimestamp _ upperBound => (.ok upperBound, log)
  | .registryExistedAt _ => (.ok true, log)
  | .blockByNumber _ => (.ok (block log), log)
  | .compute _ previous =>
      (.ok (.ok (snapshot, previous.getD 0 + 1)),
        log ++ [.computed ⟨previous, snapshot, previous.getD 0 + 1⟩])
  | .save request =>
      if (rowOf log).accepts request then
        (.ok true, log ++ [.sent (.save request)] ++ [.saved request])
      else (.ok false, log ++ [.sent (.save request)])

theorem serves_answer (log : TableLog Nat Unit) (op : ScoreOp Nat) :
    Serves log op (answer log op).1 (answer log op).2 := by
  cases op with
  | acquire request =>
      by_cases admits : (rowOf log).admits request
      · simp only [answer, if_pos admits]
        exact .acquired log request admits
      · simp only [answer, if_neg admits]
        exact .notAcquired log request _ fun _ impossible => by cases impossible
  | save request =>
      by_cases accepts : (rowOf log).accepts request
      · simp only [answer, if_pos accepts]
        exact .saved log request accepts
      · simp only [answer, if_neg accepts]
        exact .notSaved log request _ fun impossible => by cases impossible
  | _ => constructor

def calculation : ScoreProgram Nat Unit (CalculatedScore Unit) := calculateInner sampleSerde samplePolicy false

def firstDay : TableLog Nat Unit := (runAlone answer calculation []).2

def secondDay : TableLog Nat Unit := (runAlone answer calculation firstDay).2

theorem steps_day (log : TableLog Nat Unit)
    (threads : List (Thread Bool (ScoreOp Nat) (ScoreReply Unit) ScoreFailure
      (CalculatedScore Unit))) :
    Steps (scoreMachine sampleSerde samplePolicy) ⟨log, threads⟩
      ⟨(runAlone answer calculation log).2,
        threads ++ [⟨false, (runAlone answer calculation log).1⟩]⟩ :=
  .head (.started log threads false calculation rfl)
    (steps_runAlone answer (fun _ => True) threads (fun log op _ => serves_answer log op)
      (fun _ _ _ => trivial) calculation log trivial)

/-- The second day goes on from what the first saved. -/
theorem second_day_chained : ∃ before request, Occurs secondDay before (.saved request) ∧
    request.version = 2 ∧ request.payload = "xxddd" ∧ Chained sampleSerde before request := by
  have saves : (savesOf secondDay).map (fun request => (request.version, request.payload)) =
      [(1, "xdd"), (2, "xxddd")] := by
    decide +kernel
  have second : (2, "xxddd") ∈ (savesOf secondDay).map fun request =>
      (request.version, request.payload) := by
    simp [saves]
  obtain ⟨request, member, same⟩ := List.mem_map.mp second
  obtain ⟨before, occurs⟩ := exists_occurs (mem_savesOf.mp member)
  refine ⟨before, request, occurs, congrArg Prod.fst same, congrArg Prod.snd same, ?_⟩
  exact score_saves_chain sampleSerde samplePolicy _ ((steps_day [] []).trans (steps_day firstDay _)) before
    request occurs

end SampleScores

end Usd8Core.ScoreApi
