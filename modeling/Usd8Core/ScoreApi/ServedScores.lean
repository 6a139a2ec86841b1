import Usd8Core.ScoreApi.IncrementalRuns
import Usd8Core.ScoreApi.ScoreRuns

/-!
# The scores that the service answers with

An answer is fresh, or what the row held, or what it held when the work was left to another
calculation.  In every interleaving it is a score that was calculated and saved, so it has the
figures that a calculation from nothing has at its reference block.
-/

set_option autoImplicit false

namespace Usd8Core.ScoreApi

open Usd8Core.Checkpoint (ScoredBook)
open Usd8Core.Engine
open Usd8Core.Lib.ByteWords
open Usd8Core.Lib.CheckedCall
open Usd8Core.Lib.DecimalText
open Usd8Core.Lib.EventLog
open Usd8Core.Lib.Interleaving
open Usd8Core.Lib.OracleCall

/-! ## Answers are saved -/

section Answers

variable {C S : Type} {serde : PayloadSerde C S} {policy : WorkPolicy} {caller : Caller Bool}
  {log later : TableLog C S}

/-- Two snapshots that differ in how they were obtained at most. -/
def SameScore (first second : CachedInsuranceScoreSnapshot S) : Prop :=
  first.referenceBlock = second.referenceBlock ∧ first.content = second.content

/-- The payload of a save is read back with this snapshot. -/
def SavedSnapshot (serde : PayloadSerde C S) (log : TableLog C S)
    (snapshot : CachedInsuranceScoreSnapshot S) : Prop :=
  ∃ saved ∈ savesOf log, ∃ persisted stored, decodeCheckpointPayload serde saved.payload =
    some persisted ∧ persisted.snapshot = some stored ∧ SameScore snapshot stored

/-- The payload of a save was written from this snapshot, which had been computed. -/
def WrittenSnapshot (serde : PayloadSerde C S) (log : TableLog C S)
    (snapshot : CachedInsuranceScoreSnapshot S) : Prop :=
  ∃ saved ∈ savesOf log, ∃ result : Computed C S, .computed result ∈ log ∧ saved.payload =
    serde.text ⟨result.checkpoint, some result.snapshot, some saved.epoch⟩ ∧
    SameScore snapshot result.snapshot

/-- An answer was written into the table, or read from it. -/
def Answered (serde : PayloadSerde C S) (log : TableLog C S) (score : CalculatedScore S) : Prop :=
  WrittenSnapshot serde log score.value ∨ SavedSnapshot serde log score.value

theorem savesOf_subset (grown : log <+: later) {saved : SaveRequest} (member : saved ∈ savesOf log) :
    saved ∈ savesOf later :=
  mem_savesOf.mpr (grown.subset (mem_savesOf.mp member))

theorem SavedSnapshot.mono {snapshot : CachedInsuranceScoreSnapshot S}
    (held : SavedSnapshot serde log snapshot) (grown : log <+: later) :
    SavedSnapshot serde later snapshot := by
  obtain ⟨saved, member, rest⟩ := held
  exact ⟨saved, savesOf_subset grown member, rest⟩

theorem SavedSnapshot.relabel {snapshot other : CachedInsuranceScoreSnapshot S}
    (held : SavedSnapshot serde log snapshot) (same : SameScore other snapshot) :
    SavedSnapshot serde log other := by
  obtain ⟨saved, member, persisted, stored, decoded, isStored, sameStored⟩ := held
  exact ⟨saved, member, persisted, stored, decoded, isStored, same.1.trans sameStored.1,
    same.2.trans sameStored.2⟩

/-- What `load` returns holds a snapshot of the table. -/
def Reads (serde : PayloadSerde C S) (log : TableLog C S)
    (stored : Option (StoredCheckpoint C S)) : Prop :=
  ∀ snapshot ∈ stored.bind StoredCheckpoint.snapshot, SavedSnapshot serde log snapshot

theorem Reads.mono {stored : Option (StoredCheckpoint C S)} (held : Reads serde log stored)
    (grown : log <+: later) : Reads serde later stored :=
  fun snapshot member => (held snapshot member).mono grown

theorem storedOf_reads {stored : Option (StoredCheckpoint C S)}
    (read : storedOf serde (rowOf log) = .ok stored) : Reads serde log stored := by
  intro snapshot isSnapshot
  unfold storedOf at read
  cases held : (rowOf log).payload with
  | none =>
      rw [held] at read
      rw [← (pure_ok_iff _ _).mp read] at isSnapshot
      cases isSnapshot
  | some payload =>
      rw [held] at read
      obtain ⟨_, -, read⟩ := (bind_ok_iff _ _ _).mp read
      obtain ⟨version, -, read⟩ := (bind_ok_iff _ _ _).mp read
      obtain ⟨persisted, decoded, read⟩ := (bind_ok_iff _ _ _).mp read
      rw [← (pure_ok_iff _ _).mp read] at isSnapshot
      have lastPayload := (rowOf_lastSave log).2
      rw [held] at lastPayload
      obtain ⟨last, isLast, samePayload⟩ := Option.map_eq_some_iff.mp lastPayload.symm
      refine ⟨last, List.mem_of_getLast? isLast, persisted, snapshot, ?_, isSnapshot, rfl, rfl⟩
      rw [samePayload]
      exact (orRevert_ok_iff _ _ _).mp decoded

theorem currentSnapshot_reads {forceRefresh : Bool} {epoch now : Nat}
    {stored : Option (StoredCheckpoint C S)} {snapshot : CachedInsuranceScoreSnapshot S}
    (held : Reads serde log stored)
    (isCurrent : currentSnapshot forceRefresh stored epoch now = some snapshot) :
    SavedSnapshot serde log snapshot := by
  refine held snapshot ?_
  cases stored with
  | none => cases isCurrent
  | some value =>
      unfold currentSnapshot at isCurrent
      obtain ⟨kept, isKept, isSnapshot⟩ := Option.bind_eq_some_iff.mp isCurrent
      cases (Option.filter_eq_some_iff.mp isKept).1
      exact isSnapshot

theorem deferredScore_answered {stored : Option (StoredCheckpoint C S)} {status : String}
    {score : CalculatedScore S} (held : Reads serde log stored)
    (deferred : deferredScore stored status = .ok score) : Answered serde log score := by
  unfold deferredScore at deferred
  split at deferred
  · rename_i snapshot isSnapshot
    rw [← (pure_ok_iff _ _).mp deferred]
    exact .inr ((held snapshot (Option.filter_eq_some_iff.mp isSnapshot).1).relabel ⟨rfl, rfl⟩)
  · cases deferred

/-! ## One calculation -/

theorem safe_loadReads :
    Safe (scoreMachine serde policy) (tableRely serde) caller
      (OnOk fun stored later => Held serde later stored ∧ Reads serde later stored)
      (load serde) log := by
  have read : Safe (scoreMachine serde policy) (tableRely serde) caller
      (OnOk fun row later => ∃ moment : TableLog C S, moment <+: later ∧ row = rowOf moment)
      (call .load : ScoreProgram C S _) log := by
    refine safe_call .load fun current reply after _ legal serves => ?_
    cases serves with
    | failed => exact ⟨legal, List.prefix_rfl, fun _ impossible => by cases impossible⟩
    | loaded =>
        refine ⟨legal, List.prefix_rfl, fun row isRow later rest => ⟨current, rest, ?_⟩⟩
        exact (Except.ok.inj isRow).symm
  refine read.bindOk fun row seen _ _ found => ?_
  obtain ⟨moment, older, rfl⟩ := found
  refine safe_ofExcept_of _ (fun stored current isStored rest _ => ?_) fun _ _ _ _ _ => trivial
  have grown : moment <+: current := older.trans rest
  exact ⟨(storedOf_held isStored).mono grown, (storedOf_reads isStored).mono grown⟩

theorem safe_deferred {stored : Option (StoredCheckpoint C S)} (status : String)
    (held : Reads serde log stored) :
    Safe (scoreMachine serde policy) (tableRely serde) caller
      (OnOk fun score later => Answered serde later score)
      (.ofExcept (deferredScore stored status) : ScoreProgram C S _) log :=
  safe_ofExcept_of _
    (fun _ _ deferred rest _ => deferredScore_answered (held.mono rest) deferred)
    fun _ _ _ _ _ => trivial

/-- A save that is reported has taken effect. -/
theorem safe_saveReported (request : SaveRequest) (result : Computed C S)
    (justified : Justified serde log request result) :
    Safe (scoreMachine serde policy) (tableRely serde) caller
      (OnOk fun saved later => saved = true → request ∈ savesOf later ∧ .computed result ∈ later)
      (call (.save request) : ScoreProgram C S _) log := by
  refine safe_call (.save request) fun current reply after since legal serves => ?_
  have sent : TableLegal serde (current ++ [.sent (.save request)]) :=
    .snoc _ _ legal (.sentSave request result (justified.mono since))
  cases serves with
  | failed => exact ⟨legal, List.prefix_rfl, fun _ impossible => by cases impossible⟩
  | notSaved _ reply unreported =>
      refine ⟨sent, List.prefix_append _ _, fun answer isAnswer _ _ isSaved => ?_⟩
      exact (unreported (isSaved ▸ isAnswer)).elim
  | saved _ accepts =>
      have row : rowOf (current ++ [.sent (.save request)]) = rowOf current := rowOf_snoc _ _
      refine ⟨.snoc _ _ sent (.saved request (by simp) (by rw [row]; exact accepts)), ?_, ?_⟩
      · rw [List.append_assoc]
        exact List.prefix_append _ _
      · refine fun _ _ later rest _ => ⟨mem_savesOf.mpr (rest.subset (by simp)), ?_⟩
        refine rest.subset (List.mem_append_left _ (List.mem_append_left _ ?_))
        exact since.subset justified.computed

section Calculation

variable {forceRefresh : Bool} {now epoch generation : Nat}
  {stored : Option (StoredCheckpoint C S)}

theorem safe_saveScoreAnswered (held : Held serde log stored)
    {snapshot : CachedInsuranceScoreSnapshot S} {checkpoint : C}
    (computed : ∃ result : Computed C S, .computed result ∈ log ∧
      result.snapshot = snapshot ∧ result.checkpoint = checkpoint ∧
      (result.previous = none ∨ result.previous = stored.map StoredCheckpoint.checkpoint)) :
    Safe (scoreMachine serde policy) (tableRely serde) caller
      (OnOk fun score later => Answered serde later score)
      (saveScore serde forceRefresh now epoch generation stored snapshot checkpoint) log := by
  obtain ⟨result, member, rfl, rfl, previous⟩ := computed
  refine (safe_ofExcept _).forget.bindOk fun cursorBlock log1 since1 _ _ => ?_
  have saved : Safe (scoreMachine serde policy) (tableRely serde) caller
      (OnOk fun isSaved later => isSaved = true → WrittenSnapshot serde later result.snapshot)
      (save serde result.checkpoint result.snapshot epoch cursorBlock
        (stored.map StoredCheckpoint.version) (if forceRefresh then some now else none) generation)
      log1 := by
    refine (safe_failIf _ _).forget.bindOk fun _ log2 since2 _ _ => ?_
    refine (safe_failIf _ _).forget.bindOk fun _ log3 since3 _ _ => ?_
    refine (safe_question .clock trivial).bindOk fun saveNow log4 since4 _ _ => ?_
    have since := ((since1.trans since2).trans since3).trans since4
    refine (safe_saveReported _ result ⟨since.subset member, rfl, rfl, ?_⟩).endsOf
      (fun _ _ _ reported isSaved =>
        ⟨_, (reported isSaved).1, result, (reported isSaved).2, rfl, rfl, rfl⟩)
      fun _ _ _ _ => trivial
    rcases previous with cold | resumed
    · exact .inl cold
    · cases isStored : stored with
      | none => exact .inl (by rw [resumed, isStored]; rfl)
      | some value =>
          obtain ⟨earlier, saved, version, checkpoint⟩ := held value isStored
          refine .inr ⟨earlier, since.subset saved, by simp [version], ?_⟩
          rw [checkpoint, resumed, isStored]
          rfl
  refine saved.bindOk fun isSaved _ _ _ written => ?_
  split
  · rename_i reported
    refine safe_done _ fun current rest _ => .inl ?_
    obtain ⟨request, isRequest, result, member, same⟩ := written reported
    exact ⟨request, savesOf_subset rest isRequest, result, rest.subset member, same⟩
  · exact safe_loadReads.bindOk fun latest _ _ _ held => safe_deferred "updating" held.2

theorem safe_calculateLeasedAnswered (held : Held serde log stored)
    (reads : Reads serde log stored) :
    Safe (scoreMachine serde policy) (tableRely serde) caller
      (OnOk fun score later => Answered serde later score)
      (calculateLeased serde policy forceRefresh now epoch generation stored) log := by
  refine (safe_question .clock trivial).bindOk fun budgetNow log1 since1 _ _ => ?_
  refine (safe_question (.reserveBudget _) trivial).bindOk fun reserved log2 since2 _ _ => ?_
  split
  · exact safe_deferred _ (reads.mono (since1.trans since2))
  · refine (safe_question .finalizedBlock trivial).bindOk fun finalized log3 since3 _ _ => ?_
    split
    · exact safe_deferred _ (reads.mono ((since1.trans since2).trans since3))
    · refine (safe_referenceBlock finalized).bindOk fun reference log4 since4 _ _ => ?_
      refine (safe_computeScore reference).bindOk fun value log5 since5 _ computed => ?_
      have since := (((since1.trans since2).trans since3).trans since4).trans since5
      exact safe_saveScoreAnswered (held.mono since) computed

theorem safe_calculateInnerAnswered (log : TableLog C S) :
    Safe (scoreMachine serde policy) (tableRely serde) caller
      (OnOk fun score later => Answered serde later score)
      (calculateInner serde policy forceRefresh) log := by
  refine (safe_question .clock trivial).bindOk fun now _ _ _ _ => ?_
  refine (safe_ofExcept _).forget.bindOk fun epoch _ _ _ _ => ?_
  refine safe_loadReads.bindOk fun stored log1 _ _ loaded => ?_
  obtain ⟨held, reads⟩ := loaded
  split
  · rename_i snapshot isCurrent
    refine safe_done _ fun current rest _ => .inr ?_
    exact ((currentSnapshot_reads reads isCurrent).mono rest).relabel ⟨rfl, rfl⟩
  · refine (safe_acquire epoch now _).bindOk fun lease log2 since2 _ _ => ?_
    cases lease with
    | some generation => exact safe_calculateLeasedAnswered (held.mono since2) (reads.mono since2)
    | none => exact safe_loadReads.bindOk fun latest _ _ _ held => safe_deferred "updating" held.2

end Calculation

/-- What any calculation answered, in any interleaving, is in the table. -/
theorem scoreMachine_answers (serde : PayloadSerde C S) (policy : WorkPolicy) :
    Respects (scoreMachine serde policy) (tableRely serde) fun _ =>
      OnOk fun score later => Answered serde later score where
  starts log number forceRefresh program _ _ started := by
    cases started
    exact safe_calculateInnerAnswered log
  serves := (scoreMachine_respects serde policy).serves
  drifts := (scoreMachine_respects serde policy).drifts

end Answers

/-! ## Saved scores are calculated -/

section Scores

variable {σ : Type} {client : RpcClient σ} {abi : AbiLibrary} {reads : ScoreReads σ}
  {chain : LogChain} {book : ScoredBook chain} {view : ScoreView} {network : ScoreNetwork}
  {registry account : Address} {serde : PayloadSerde UserCheckpoint ScoreContent}
  {log : TableLog UserCheckpoint ScoreContent}

/-- What the table calls computed is a run of `compute_incremental_score_at`. -/
def IsRun (client : RpcClient σ) (abi : AbiLibrary) (reads : ScoreReads σ) (network : ScoreNetwork)
    (registry account : Address) (result : Computed UserCheckpoint ScoreContent) : Prop :=
  ∃ (reference : BlockAnchor) (start : σ), reference.number ≤ maxU64 ∧
    (runFrom (computeIncrementalScoreAt client abi reads network registry account reference
      result.previous) start).1 = .ok (result.snapshot, result.checkpoint)

/-- `serde_json` reads what was computed as it was written. -/
def ReadsBack (serde : PayloadSerde UserCheckpoint ScoreContent)
    (result : Computed UserCheckpoint ScoreContent) : Prop :=
  ∀ epoch, serde.persisted (serde.text ⟨result.checkpoint, some result.snapshot, some epoch⟩) =
    some ⟨result.checkpoint, some result.snapshot, some epoch⟩

/-- A snapshot of a calculation that went on from checkpoints of earlier ones, or from nothing. -/
structure Calculated (client : RpcClient σ) (abi : AbiLibrary) (reads : ScoreReads σ)
    (network : ScoreNetwork) (registry account : Address)
    (result : Computed UserCheckpoint ScoreContent) : Prop where
  run : IsRun client abi reads network registry account result
  resumed : ∀ checkpoint ∈ result.previous,
    Produced client abi reads network registry account checkpoint

theorem Calculated.produced {result : Computed UserCheckpoint ScoreContent}
    (calculated : Calculated client abi reads network registry account result) :
    Produced client abi reads network registry account result.checkpoint := by
  obtain ⟨reference, start, inWord, run⟩ := calculated.run
  cases isPrevious : result.previous with
  | none => exact .cold inWord (isPrevious ▸ run)
  | some checkpoint =>
      exact .resumed (calculated.resumed checkpoint isPrevious) inWord (isPrevious ▸ run)

theorem decodePayload_readsBack {result : Computed UserCheckpoint ScoreContent} {epoch : Nat}
    (readsBack : ReadsBack serde result) :
    decodeCheckpointPayload serde
        (serde.text ⟨result.checkpoint, some result.snapshot, some epoch⟩) =
      some ⟨result.checkpoint, some result.snapshot, some epoch⟩ := by
  unfold decodeCheckpointPayload
  rw [readsBack epoch]

/-- By induction on the log: the checkpoint that a calculation went on from is the one of the save
before. -/
theorem saved_calculated (legal : TableLegal serde log)
    (runs : ∀ result, .computed result ∈ log →
      IsRun client abi reads network registry account result)
    (readsBack : ∀ result, .computed result ∈ log → ReadsBack serde result)
    (request : SaveRequest) (saved : request ∈ savesOf log) :
    ∃ result, .computed result ∈ log ∧
      request.payload = serde.text ⟨result.checkpoint, some result.snapshot, some request.epoch⟩ ∧
      Calculated client abi reads network registry account result := by
  induction legal generalizing request with
  | nil => cases saved
  | snoc log event older allowed ih =>
      have earlier (last : SaveRequest) (isEarlier : last ∈ savesOf log) :
          ∃ result, .computed result ∈ log ∧
            last.payload = serde.text ⟨result.checkpoint, some result.snapshot, some last.epoch⟩ ∧
            Calculated client abi reads network registry account result :=
        ih (fun result member => runs result (List.mem_append_left _ member))
          (fun result member => readsBack result (List.mem_append_left _ member)) last isEarlier
      obtain ⟨before, occurs⟩ := exists_occurs (mem_savesOf.mp saved)
      rcases occurs_append_iff.mp occurs with ⟨rfl, isEvent⟩ | inside
      · obtain ⟨result, member, payload, previous⟩ :=
          (TableLegal.chained (.snoc before event older allowed) occurs).computed
        have inLog : .computed result ∈ before ++ [event] := List.mem_append_left _ member
        refine ⟨result, inLog, payload, runs result inLog, fun checkpoint isPrevious => ?_⟩
        rcases previous with cold | ⟨last, isLast, stored⟩
        · rw [cold] at isPrevious
          cases isPrevious
        · obtain ⟨lastResult, lastMember, lastPayload, lastCalculated⟩ :=
            earlier last (List.mem_of_getLast? isLast)
          have lastReadsBack := readsBack lastResult (List.mem_append_left _ lastMember)
          rw [storedCheckpoint, lastPayload, decodePayload_readsBack lastReadsBack,
            isPrevious] at stored
          rw [← Option.some.inj stored]
          exact lastCalculated.produced
      · obtain ⟨result, member, rest⟩ := earlier request (mem_savesOf.mpr inside.mem)
        exact ⟨result, List.mem_append_left _ member, rest⟩

/-- What the service answered is the score of a calculation whose result is in the table. -/
theorem answered_calculated (legal : TableLegal serde log)
    (runs : ∀ result, .computed result ∈ log →
      IsRun client abi reads network registry account result)
    (readsBack : ∀ result, .computed result ∈ log → ReadsBack serde result)
    {score : CalculatedScore ScoreContent} (answered : Answered serde log score) :
    ∃ result, Calculated client abi reads network registry account result ∧
      SameScore score.value result.snapshot := by
  rcases answered with ⟨saved, isSaved, written, member, payload, same⟩ |
    ⟨saved, isSaved, persisted, stored, decoded, isStored, same⟩
  · obtain ⟨result, inLog, samePayload, calculated⟩ := saved_calculated legal runs readsBack saved
      isSaved
    have back := readsBack result inLog saved.epoch
    rw [← samePayload, payload, readsBack written member saved.epoch] at back
    simp only [Option.some.injEq, PersistedCheckpoint.mk.injEq, and_true] at back
    exact ⟨result, calculated, back.2 ▸ same⟩
  · obtain ⟨result, inLog, payload, calculated⟩ := saved_calculated legal runs readsBack saved
      isSaved
    rw [payload, decodePayload_readsBack (readsBack result inLog)] at decoded
    cases Option.some.inj decoded
    cases Option.some.inj isStored
    exact ⟨result, calculated, same⟩

theorem computes_referenceBlock (reference : BlockAnchor) (previous : Option UserCheckpoint) :
    Computes (fun result => result.1.referenceBlock = decimalText reference.number)
      (computeIncrementalScoreAt client abi reads network registry account reference previous) := by
  refine ends_true.bind fun _ _ => ends_true.bind fun _ _ => ends_true.bind fun _ _ => ?_
  refine ends_true.bind fun _ _ => ends_true.bind fun _ _ => ends_true.bind fun read _ => ?_
  obtain ⟨config, spent⟩ := read
  refine ends_true.bind fun _ _ => ends_true.bind fun _ _ => ends_true.bind fun _ _ => ?_
  refine ends_true.bind fun _ _ => ends_true.bind fun _ _ => ends_true.bind fun _ _ => ?_
  refine ends_true.bind fun _ _ => ends_true.bind fun _ _ => ends_true.bind fun _ _ => ?_
  exact ends_pure rfl

/-- In every interleaving of calculations each answer, fresh, cached or deferred, has the figures
that the histories give at its reference block, whatever the calculations before it went on
from. -/
theorem served_scores_agree (serde : PayloadSerde UserCheckpoint ScoreContent) (policy : WorkPolicy)
    (serves : ServesHistories client abi book) (tells : reads.Tells view)
    (listed : ∀ block, ∀ scored ∈ (view.config registry account block).scoredTokens,
      book.Scored scored.token)
    (config : Config (TableLog UserCheckpoint ScoreContent) Bool (ScoreOp UserCheckpoint)
      (ScoreReply ScoreContent) ScoreFailure (CalculatedScore ScoreContent))
    (steps : Steps (scoreMachine serde policy) ⟨[], []⟩ config)
    (runs : ∀ result, .computed result ∈ config.world →
      IsRun client abi reads network registry account result)
    (readsBack : ∀ result, .computed result ∈ config.world → ReadsBack serde result)
    (number : Nat) (forceRefresh : Bool) (score : CalculatedScore ScoreContent)
    (ended : config.threads[number]? = some ⟨forceRefresh, .done score⟩) :
    ∃ reference : Nat, score.value.referenceBlock = decimalText reference ∧
      ScoredAs book account (view.config registry account reference)
        (view.spent registry account reference) reference score.value.content := by
  have safe := steps_allSafe (scoreMachine_answers serde policy)
    (allSafe_nil Legal.nil fun _ => trivial) steps
  obtain ⟨result, calculated, isReference, isContent⟩ :=
    answered_calculated safe.valid runs readsBack (safe.result ended)
  obtain ⟨reference, start, inWord, run⟩ := calculated.run
  have follow : ∀ checkpoint ∈ result.previous, checkpoint.Follows book account :=
    fun checkpoint isPrevious =>
      (calculated.resumed checkpoint isPrevious).follows serves tells listed
  have block := (computes_referenceBlock reference result.previous).ok_value run
  have scored := (computes_incrementalScoreAt serves tells (listed _) inWord follow).ok_value run
  exact ⟨reference.number, isReference.trans block, isContent ▸ scored.1⟩

end Scores

end Usd8Core.ScoreApi
