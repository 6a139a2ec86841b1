import Usd8Core.Engine.Rpc
import Usd8Core.Lib.SlotFill

/-!
# Batches over HTTP

`HttpRpc::batch_request`: one envelope with consecutive ids, and an answer whose
members are put into the slots of their ids.  An answer is accepted exactly when it
has one good member for every id, in any order.
-/

set_option autoImplicit false

namespace Usd8Core.Engine

open Usd8Core.Lib.ByteWords
open Usd8Core.Lib.CheckedCall
open Usd8Core.Lib.Json
open Usd8Core.Lib.OracleCall
open Usd8Core.Lib.SlotFill

/-! ## Requests -/

/-- The client, its timers, and how many bytes `serde_json` writes for a value. -/
structure HttpRpc (σ : Type) where
  completeAttempt : String → JsonValue → σ → Except RpcError JsonValue × σ
  sleep : Nat → σ → σ
  encodedLength : JsonValue → Nat
  retryCount : Nat
  retryDelayMs : Nat

/-- The counters of the client, and the state of what it talks to. -/
structure HttpState (σ : Type) where
  nextId : Nat
  logicalRequests : Nat
  transportRetries : Nat
  transport : σ

def retryable : RpcError → Bool
  | .transport _ _ => true
  | .httpStatus _ status => status = 408 ∨ status = 429 ∨ (500 ≤ status ∧ status ≤ 504)
  | _ => false

def BATCH_BYTES : Nat := 1024 * 1024

section Requests

variable {σ : Type} (rpc : HttpRpc σ)

/-- The attempts from number `attempt` on, of which `left` may be followed by another. -/
def HttpRpc.completeFrom (method : String) (body : JsonValue) (attempt : Nat) :
    Nat → HttpState σ → Except RpcError JsonValue × HttpState σ
  | 0, start =>
      let (answer, last) := rpc.completeAttempt method body start.transport
      (answer, { start with transport := last })
  | left + 1, start =>
      match rpc.completeAttempt method body start.transport with
      | (.ok value, last) => (.ok value, { start with transport := last })
      | (.error error, last) =>
          if retryable error then
            let delay := min (rpc.retryDelayMs * 2 ^ min attempt 10) maxU64
            HttpRpc.completeFrom method body (attempt + 1) left
              { start with
                transportRetries := (start.transportRetries + 1) % 2 ^ 64
                transport := rpc.sleep delay last }
          else (.error error, { start with transport := last })

def HttpRpc.completeRequest (method : String) (body : JsonValue) (start : HttpState σ) :
    Except RpcError JsonValue × HttpState σ :=
  rpc.completeFrom method body 0 rpc.retryCount start

def batchMember (method : String) (id : Nat) (params : JsonValue) : JsonValue :=
  .object [("jsonrpc", .string "2.0"),
    ("id", .number (some id) (if id < 2 ^ 63 then some id else none)),
    ("method", .string method), ("params", params)]

def batchBody (first : Nat) (method : String) (params : List JsonValue) : JsonValue :=
  .array (params.zipIdx.map fun (params, index) => batchMember method (first + index) params)

end Requests

/-! ## Answers -/

def invalidMember (method : String) : ScanFailure :=
  .returned (.invalidResponse method "invalid batch response envelope or member")

/-- The result of a member, where it is no error. -/
def memberResult (method : String) (member : JsonValue) : Except ScanFailure JsonValue :=
  match member.get "error" with
  | some error => do
      revertIf (member.get "result").isSome (invalidMember method)
      let code ← orRevert ((error.get "code").bind JsonValue.asI64) (invalidMember method)
      let _ ← orRevert ((error.get "message").bind JsonValue.asString) (invalidMember method)
      throw (.returned (.jsonRpc code "batch member failed"))
  | none => orRevert (member.get "result") (invalidMember method)

/-- One round of the loop; to index a slot that is not there would panic. -/
def placeMember (method : String) (first count : Nat) (results : List (Option JsonValue))
    (member : JsonValue) : Except ScanFailure (List (Option JsonValue)) := do
  let id ← orRevert ((member.get "id").bind JsonValue.asU64) (invalidMember method)
  let index ← orRevert ((if first ≤ id then some (id - first) else none).filter (· < count))
    (invalidMember method)
  let result ← orRevert results[index]? .panicked
  revertIf (result.isSome ∨ (member.get "jsonrpc").bind JsonValue.asString ≠ some "2.0")
    (invalidMember method)
  let value ← memberResult method member
  pure (results.set index (some value))

def placeMembers (method : String) (first count : Nat) (members : List JsonValue) :
    Except ScanFailure (List (Option JsonValue)) :=
  members.foldlM (placeMember method first count) (List.replicate count none)

def readBatch (method : String) (first count : Nat) (value : JsonValue) :
    Except ScanFailure (List JsonValue) := do
  let members ← orRevert (value.asArray.filter (·.length = count)) (invalidMember method)
  let results ← placeMembers method first count members
  results.mapM fun result => orRevert result (invalidMember method)

/-- `batch_request` -/
def HttpRpc.batchRequest {σ : Type} (rpc : HttpRpc σ) (method : String) (params : List JsonValue) :
    Asking (HttpState σ) ScanFailure (List JsonValue) := do
  let count := params.length
  liftResult (revertIf (params = [] ∨ count > 256) (.returned .invalidBatch))
  let first ← ask fun start =>
    if start.nextId + count ≤ maxU64 then
      (.ok start.nextId, { start with nextId := start.nextId + count })
    else (.error (.returned .invalidBatch), start)
  let body := batchBody first method params
  liftResult (revertIf (rpc.encodedLength body > BATCH_BYTES) (.returned .invalidBatch))
  ask fun start =>
    (.ok (), { start with logicalRequests := (start.logicalRequests + count) % 2 ^ 64 })
  let value ← ask fun start =>
    let (answer, last) := rpc.completeRequest method body start
    (answer.mapError .returned, last)
  liftResult (readBatch method first count value)

/-! ## Members and ids -/

/-- A good member: a result for the request with the id. -/
structure Answers (id : Nat) (result member : JsonValue) : Prop where
  isId : (member.get "id").bind JsonValue.asU64 = some id
  version : (member.get "jsonrpc").bind JsonValue.asString = some "2.0"
  noError : member.get "error" = none
  hasResult : member.get "result" = some result

/-- The members in the order of their ids are good, one for each of the results. -/
def Matched (first count : Nat) (members results : List JsonValue) : Prop :=
  results.length = count ∧ ∃ ordered, ordered.Perm members ∧
    List.Forall₂ (fun content member => Answers (first + content.1) content.2 member)
      (contents results) ordered

/-- Not an error that a call returns. -/
def Unreturned (error : ScanFailure) : Prop := error.asReturned = none

theorem not_unreturned_returned (error : RpcError) : ¬ Unreturned (.returned error) := by
  simp [Unreturned, ScanFailure.asReturned]

theorem not_unreturned_invalidMember (method : String) : ¬ Unreturned (invalidMember method) :=
  not_unreturned_returned _

theorem returned_of_not_unreturned {error : ScanFailure} (isReturned : ¬ Unreturned error) :
    ∃ actual, error = .returned actual := by
  cases error with
  | returned actual => exact ⟨actual, rfl⟩
  | panicked => exact absurd rfl isReturned
  | unfinished => exact absurd rfl isReturned

section Members

variable {method : String} {first count : Nat} {member : JsonValue}

theorem memberResult_ok_iff {value : JsonValue} : memberResult method member = .ok value ↔
    member.get "error" = none ∧ member.get "result" = some value := by
  unfold memberResult
  cases failed : member.get "error" with
  | none => simp [orRevert_ok_iff]
  | some error =>
      simp only [bind_ok_iff, reduceCtorEq, false_and, iff_false]
      rintro ⟨_, _, _, _, _, _, thrown⟩
      cases thrown

theorem memberResult_avoids : Avoids Unreturned (memberResult method member) := by
  unfold memberResult
  split
  · apply avoids_revertIf_bind _ _ _ fun _ => not_unreturned_invalidMember method
    intro _
    apply avoids_bind _ _ (avoids_orRevert _ _ fun _ => not_unreturned_invalidMember method)
    intro code _
    apply avoids_bind _ _ (avoids_orRevert _ _ fun _ => not_unreturned_invalidMember method)
    intro message _
    exact avoids_error _ (not_unreturned_returned _)
  · exact avoids_orRevert _ _ fun _ => not_unreturned_invalidMember method

/-- What a round does: a good member for an empty slot. -/
theorem placeMember_ok_iff {results next : List (Option JsonValue)} :
    placeMember method first count results member = .ok next ↔
      ∃ index value, Answers (first + index) value member ∧ index < count ∧
        results[index]? = some none ∧ next = results.set index (some value) := by
  simp only [placeMember, bind_ok_iff, orRevert_ok_iff, revertIf_ok_iff, pure_ok_iff,
    memberResult_ok_iff, Option.filter_eq_some_iff, decide_eq_true_eq, not_or, not_not,
    exists_const, Bool.not_eq_true, Option.isSome_eq_false_iff, Option.isNone_iff_eq_none]
  constructor
  · rintro ⟨id, isId, index, ⟨isIndex, inside⟩, _, isSlot, ⟨rfl, version⟩, value,
      ⟨noError, hasResult⟩, rfl⟩
    split at isIndex
    · cases isIndex
      have isSum : first + (id - first) = id := Nat.add_sub_cancel' ‹_›
      exact ⟨id - first, value, ⟨by rw [isSum, isId], version, noError, hasResult⟩, inside, isSlot,
        rfl⟩
    · cases isIndex
  · rintro ⟨index, value, ⟨isId, version, noError, hasResult⟩, inside, isSlot, rfl⟩
    refine ⟨first + index, isId, index, ⟨?_, inside⟩, none, isSlot, ⟨rfl, version⟩, value,
      ⟨noError, hasResult⟩, rfl⟩
    rw [if_pos (Nat.le_add_right first index), Nat.add_sub_cancel_left]

/-- An index below the length of the slots never panics. -/
theorem placeMember_avoids {results : List (Option JsonValue)} (isLength : results.length = count) :
    Avoids Unreturned (placeMember method first count results member) := by
  apply avoids_bind _ _ (avoids_orRevert _ _ fun _ => not_unreturned_invalidMember method)
  intro id _
  apply avoids_bind _ _ (avoids_orRevert _ _ fun _ => not_unreturned_invalidMember method)
  intro index isIndex
  rw [orRevert_ok_iff, Option.filter_eq_some_iff, decide_eq_true_eq] at isIndex
  have inside : index < results.length := isLength.symm ▸ isIndex.2
  apply avoids_bind
  · apply avoids_orRevert
    intro noSlot
    rw [List.getElem?_eq_getElem inside] at noSlot
    cases noSlot
  · intro result _
    apply avoids_revertIf_bind _ _ _ fun _ => not_unreturned_invalidMember method
    intro _
    exact avoids_bind _ _ memberResult_avoids fun value _ => avoids_pure _

/-- The loop ends well exactly when each member is good for a slot of its own. -/
theorem placeMembers_ok_iff {members : List JsonValue} {last : List (Option JsonValue)} :
    placeMembers method first count members = .ok last ↔
      ∃ arrivals, List.Forall₂ (fun arrival member => Answers (first + arrival.1) arrival.2 member)
        arrivals members ∧ Filled count arrivals last := by
  -- The slots so far hold the arrivals so far.
  have run (before : List (Nat × JsonValue)) (results : List (Option JsonValue))
      (filled : Filled count before results) :
      members.foldlM (placeMember method first count) results = .ok last ↔
        ∃ arrivals, List.Forall₂ (fun arrival member =>
          Answers (first + arrival.1) arrival.2 member) arrivals members ∧
            Filled count (before ++ arrivals) last := by
    induction members generalizing before results with
    | nil =>
        simp only [List.foldlM_nil, pure_ok_iff, List.forall₂_nil_right_iff, exists_eq_left,
          List.append_nil]
        exact ⟨fun same => same ▸ filled, filled.unique⟩
    | cons member rest ih =>
        rw [List.foldlM_cons, bind_ok_iff]
        constructor
        · rintro ⟨next, step, later⟩
          obtain ⟨index, value, answers, inside, isEmpty, rfl⟩ := placeMember_ok_iff.mp step
          obtain ⟨arrivals, each, filledLast⟩ := (ih _ _ (filled.place inside isEmpty value)).mp later
          rw [List.append_assoc, List.singleton_append] at filledLast
          exact ⟨(index, value) :: arrivals, .cons answers each, filledLast⟩
        · rintro ⟨arrivals, each, filledLast⟩
          obtain ⟨⟨index, value⟩, others, answers, later, rfl⟩ := List.forall₂_cons_right_iff.mp each
          have inside : index < count := filledLast.inside (index, value) (by simp)
          have distinct := filledLast.distinct
          rw [List.map_append, List.nodup_append] at distinct
          have absent : index ∉ before.map Prod.fst := fun member =>
            distinct.2.2 index member index (by simp) rfl
          have isEmpty := filled.empty inside absent
          refine ⟨_, placeMember_ok_iff.mpr ⟨index, value, answers, inside, isEmpty, rfl⟩, ?_⟩
          refine (ih _ _ (filled.place inside isEmpty value)).mpr ⟨others, later, ?_⟩
          rwa [List.append_assoc, List.singleton_append]
  exact run [] _ (filled_nil count)

/-- Every slot is filled after as many members as slots. -/
theorem placeMembers_none_empty {members : List JsonValue} {last : List (Option JsonValue)}
    (run : placeMembers method first count members = .ok last) (full : members.length = count) :
    ∀ slot ∈ last, slot.isSome := by
  obtain ⟨arrivals, each, filled⟩ := placeMembers_ok_iff.mp run
  exact filled.none_empty (each.length_eq.trans full)

end Members

/-! ## Answers of a whole batch -/

def idOf (member : JsonValue) : Option Nat := (member.get "id").bind JsonValue.asU64

section Batches

variable {method : String} {first count : Nat}

theorem Matched.ids_perm {members results : List JsonValue}
    (matched : Matched first count members results) :
    (members.map idOf).Perm ((List.range count).map fun index => some (first + index)) := by
  obtain ⟨isLength, ordered, sameMembers, each⟩ := matched
  have inOrder : ordered.map idOf = (contents results).map fun content => some (first + content.1) := by
    rw [← List.forall₂_eq_eq_eq, List.forall₂_map_left_iff, List.forall₂_map_right_iff]
    exact each.flip.imp fun _ _ answers => answers.isId
  have indices : (contents results).map (fun content => some (first + content.1)) =
      (List.range count).map fun index => some (first + index) := by
    rw [← isLength, ← contents_indices, List.map_map]
    rfl
  rw [← indices, ← inOrder]
  exact (sameMembers.map idOf).symm

theorem Matched.length_eq {members results : List JsonValue}
    (matched : Matched first count members results) : members.length = count := by
  simpa using matched.ids_perm.length_eq

theorem Matched.noError {members results : List JsonValue}
    (matched : Matched first count members results) {member : JsonValue} (isMember : member ∈ members) :
    member.get "error" = none := by
  obtain ⟨-, ordered, sameMembers, each⟩ := matched
  obtain ⟨index, inside, rfl⟩ := List.getElem_of_mem (sameMembers.mem_iff.mpr isMember)
  exact (each.get (each.length_eq ▸ inside) inside).noError

theorem readBatch_ok_iff {value : JsonValue} {results : List JsonValue} :
    readBatch method first count value = .ok results ↔
      ∃ members, value = .array members ∧ Matched first count members results := by
  have isArray (members : List JsonValue) : value.asArray = some members ↔ value = .array members := by
    cases value <;> simp [JsonValue.asArray]
  have collected (slots : List (Option JsonValue)) :
      slots.mapM (fun slot => orRevert slot (invalidMember method)) = .ok results ↔
        slots = results.map some := by
    simp only [mapM_ok_iff, orRevert_ok_iff]
    rw [← List.forall₂_eq_eq_eq, List.forall₂_map_right_iff]
  simp only [readBatch, bind_ok_iff, orRevert_ok_iff, Option.filter_eq_some_iff, decide_eq_true_eq,
    isArray, collected, placeMembers_ok_iff]
  constructor
  · rintro ⟨members, ⟨rfl, full⟩, _, ⟨arrivals, each, filled⟩, rfl⟩
    obtain ⟨isLength, sameArrivals⟩ := filled_map_some_iff.mp filled
    obtain ⟨ordered, inOrder, sameMembers⟩ := List.perm_comp_forall₂ sameArrivals.symm each
    exact ⟨members, rfl, isLength, ordered, sameMembers, inOrder⟩
  · rintro ⟨members, rfl, matched⟩
    have full := matched.length_eq
    obtain ⟨isLength, ordered, sameMembers, inOrder⟩ := matched
    have reordered : Relation.Comp (List.Forall₂ fun (content : Nat × JsonValue) member =>
        Answers (first + content.1) content.2 member) List.Perm (contents results) members :=
      ⟨ordered, inOrder, sameMembers⟩
    rw [List.forall₂_comp_perm_eq_perm_comp_forall₂] at reordered
    obtain ⟨arrivals, sameArrivals, each⟩ := reordered
    exact ⟨members, ⟨rfl, full⟩, _, ⟨arrivals, each,
      filled_map_some_iff.mpr ⟨isLength, sameArrivals.symm⟩⟩, rfl⟩

/-- The loop keeps the length of the slots, so it never leaves them. -/
theorem placeMembers_avoids (members : List JsonValue) :
    Avoids Unreturned (placeMembers method first count members) := by
  have run (results : List (Option JsonValue)) (isLength : results.length = count) :
      Avoids Unreturned (members.foldlM (placeMember method first count) results) := by
    induction members generalizing results with
    | nil => exact avoids_pure _
    | cons member rest ih =>
        rw [List.foldlM_cons]
        apply avoids_bind _ _ (placeMember_avoids isLength)
        intro next step
        obtain ⟨index, value, -, -, -, rfl⟩ := placeMember_ok_iff.mp step
        exact ih _ (by rw [List.length_set, isLength])
  exact run _ List.length_replicate

theorem avoids_collect (slots : List (Option JsonValue)) :
    Avoids Unreturned (slots.mapM fun slot => orRevert slot (invalidMember method)) := by
  induction slots with
  | nil => exact avoids_pure _
  | cons slot rest ih =>
      rw [List.mapM_cons]
      apply avoids_bind _ _ (avoids_orRevert _ _ fun _ => not_unreturned_invalidMember method)
      intro value _
      exact avoids_bind _ _ ih fun values _ => avoids_pure _

theorem readBatch_avoids (value : JsonValue) :
    Avoids Unreturned (readBatch method first count value) := by
  apply avoids_bind _ _ (avoids_orRevert _ _ fun _ => not_unreturned_invalidMember method)
  intro members _
  exact avoids_bind _ _ (placeMembers_avoids members) fun slots _ => avoids_collect slots

/-- What an answer to the ids from `first` on must not be. -/
inductive Defective (first count : Nat) : JsonValue → Prop where
  | notArray {value : JsonValue} (isOther : value.asArray = none) : Defective first count value
  | lengthMismatch {members : List JsonValue} (differs : members.length ≠ count) :
      Defective first count (.array members)
  | duplicate {members before middle after : List JsonValue} {one other : JsonValue}
      (occur : members = before ++ one :: (middle ++ other :: after)) (same : idOf one = idOf other) :
      Defective first count (.array members)
  | missing {members : List JsonValue} {index : Nat} (inside : index < count)
      (absent : ∀ member ∈ members, idOf member ≠ some (first + index)) :
      Defective first count (.array members)
  | foreign {members : List JsonValue} {member : JsonValue} (isMember : member ∈ members)
      (outside : ∀ index < count, idOf member ≠ some (first + index)) :
      Defective first count (.array members)
  | failed {members : List JsonValue} {member : JsonValue} (isMember : member ∈ members)
      (hasError : (member.get "error").isSome) : Defective first count (.array members)

theorem Matched.not_defective {members results : List JsonValue}
    (matched : Matched first count members results) : ¬ Defective first count (.array members) := by
  have ids := matched.ids_perm
  have isId (id : Option Nat) : id ∈ members.map idOf ↔ ∃ index < count, some (first + index) = id := by
    rw [ids.mem_iff]
    simp
  intro defective
  cases defective with
  | notArray isOther => cases isOther
  | lengthMismatch differs => exact differs matched.length_eq
  | duplicate occur same =>
      have distinct : (members.map idOf).Nodup := by
        rw [ids.nodup_iff]
        exact List.nodup_range.map fun _ _ same => by simpa using same
      rw [occur, List.map_append, List.map_cons, List.map_append, List.map_cons, same] at distinct
      have tail := (List.nodup_append.mp distinct).2.1
      simp at tail
  | missing inside absent =>
      obtain ⟨member, isMember, same⟩ := List.mem_map.mp ((isId _).mpr ⟨_, inside, rfl⟩)
      exact absent member isMember same
  | foreign isMember outside =>
      obtain ⟨index, inside, same⟩ := (isId _).mp (List.mem_map.mpr ⟨_, isMember, rfl⟩)
      exact outside index inside same.symm
  | failed isMember hasError =>
      rw [matched.noError isMember] at hasError
      cases hasError

theorem readBatch_defective {value : JsonValue} (defective : Defective first count value) :
    ∃ error, readBatch method first count value = .error (.returned error) := by
  cases outcome : readBatch method first count value with
  | ok results =>
      obtain ⟨members, rfl, matched⟩ := readBatch_ok_iff.mp outcome
      exact absurd defective matched.not_defective
  | error error =>
      obtain ⟨actual, rfl⟩ := returned_of_not_unreturned (readBatch_avoids value error outcome)
      exact ⟨actual, rfl⟩

end Batches

/-! ## The call -/

section Call

variable {σ : Type}

/-- The client once the ids of a batch are taken. -/
def HttpState.sending (start : HttpState σ) (count : Nat) : HttpState σ :=
  { start with
    nextId := start.nextId + count
    logicalRequests := (start.logicalRequests + count) % 2 ^ 64 }

variable (rpc : HttpRpc σ) (method : String) (params : List JsonValue) (start : HttpState σ)

/-- The answer of the transport to the batch. -/
def HttpRpc.answerTo : Except RpcError JsonValue :=
  (rpc.completeRequest method (batchBody start.nextId method params)
    (start.sending params.length)).1

theorem outcome_batchRequest (nonempty : params ≠ []) (few : params.length ≤ 256)
    (ids : start.nextId + params.length < 2 ^ 64) :
    (runFrom (rpc.batchRequest method params) start).1 =
      if rpc.encodedLength (batchBody start.nextId method params) > BATCH_BYTES then
        .error (.returned .invalidBatch)
      else ((rpc.answerTo method params start).mapError .returned).bind
        (readBatch method start.nextId params.length) := by
  have accepted : ¬ (params = [] ∨ params.length > 256) := by
    simp only [nonempty, false_or]
    omega
  have inRange : start.nextId + params.length ≤ maxU64 := by
    rw [maxU64]
    omega
  by_cases tooLarge : rpc.encodedLength (batchBody start.nextId method params) > BATCH_BYTES
  · simp only [HttpRpc.batchRequest, runFrom_bind, runFrom_liftResult, runFrom_ask, revertIf,
      if_neg accepted, if_pos inRange, if_pos tooLarge]
  · simp only [HttpRpc.batchRequest, runFrom_bind, runFrom_liftResult, runFrom_ask, revertIf,
      if_neg accepted, if_pos inRange, if_neg tooLarge]
    rw [HttpRpc.answerTo, HttpState.sending]
    cases (rpc.completeRequest method (batchBody start.nextId method params) _).1 <;> rfl

/-- Whatever a batch ends with, it is not a panic. -/
theorem batchRequest_returned {error : ScanFailure} (nonempty : params ≠ [])
    (few : params.length ≤ 256) (ids : start.nextId + params.length < 2 ^ 64)
    (failed : (runFrom (rpc.batchRequest method params) start).1 = .error error) :
    ∃ actual, error = .returned actual := by
  rw [outcome_batchRequest rpc method params start nonempty few ids] at failed
  split at failed
  · cases failed
    exact ⟨_, rfl⟩
  · cases answer : rpc.answerTo method params start with
    | error actual =>
        rw [answer] at failed
        cases failed
        exact ⟨actual, rfl⟩
    | ok value =>
        rw [answer] at failed
        exact returned_of_not_unreturned (readBatch_avoids value error failed)

theorem batchBody_request (first index : Nat) (inside : index < params.length) :
    ((batchBody first method params).asArray.bind (·[index]?)) =
      some (batchMember method (first + index) params[index]) := by
  simp [batchBody, JsonValue.asArray, inside]

/-- A batch returns what the ids of the answer say: the result under the id of a request is
in the place of the request, and an answer that is not one good member for each id is an
error. -/
theorem batch_request_matches_ids (nonempty : params ≠ []) (few : params.length ≤ 256)
    (ids : start.nextId + params.length < 2 ^ 64) :
    let first := start.nextId
    let count := params.length
    let body := batchBody first method params
    let outcome := (runFrom (rpc.batchRequest method params) start).1
    (∀ index (inside : index < count), ∃ request,
      (body.asArray.bind (·[index]?)) = some request ∧ idOf request = some (first + index) ∧
        request.get "params" = some params[index]) ∧
    (∀ results, outcome = .ok results →
      ∃ members, rpc.answerTo method params start = .ok (.array members) ∧
        Matched first count members results) ∧
    (rpc.encodedLength body ≤ BATCH_BYTES →
      ∀ value, rpc.answerTo method params start = .ok value →
        (∀ members results, value = .array members → Matched first count members results →
          outcome = .ok results) ∧
        (Defective first count value → ∃ error, outcome = .error (.returned error))) ∧
    (∀ error, outcome = .error error → ∃ actual, error = .returned actual) ∧
    ∀ members slots, members.length = count →
      placeMembers method first count members = .ok slots → ∀ slot ∈ slots, slot.isSome := by
  have run := outcome_batchRequest rpc method params start nonempty few ids
  refine ⟨fun index inside => ⟨_, batchBody_request method params _ index inside, rfl, rfl⟩,
    fun results returned => ?_, fun fits value answered => ⟨?_, fun defective => ?_⟩,
    fun error failed => batchRequest_returned rpc method params start nonempty few ids failed,
    fun members slots full placed => placeMembers_none_empty placed full⟩
  · rw [run] at returned
    split at returned
    · cases returned
    · cases answer : rpc.answerTo method params start with
      | error error =>
          rw [answer] at returned
          cases returned
      | ok value =>
          rw [answer] at returned
          obtain ⟨members, rfl, matched⟩ := readBatch_ok_iff.mp returned
          exact ⟨members, rfl, matched⟩
  · rintro members results rfl matched
    rw [run, if_neg (by omega), answered]
    exact readBatch_ok_iff.mpr ⟨members, rfl, matched⟩
  · have refusal : ∃ error, readBatch method start.nextId params.length value =
        .error (.returned error) := readBatch_defective defective
    rw [run, if_neg (by omega), answered]
    exact refusal

end Call

/-! ## Two balances, answered the other way round -/

namespace TwoAnswers

def answered (id : Nat) (result : String) : JsonValue :=
  .object [("jsonrpc", .string "2.0"), ("id", .number (some id) (some id)),
    ("result", .string result)]

def rpc : HttpRpc Unit where
  completeAttempt _ _ start := (.ok (.array [answered 8 "0x02", answered 7 "0x01"]), start)
  sleep _ start := start
  encodedLength _ := 200
  retryCount := 5
  retryDelayMs := 200

def start : HttpState Unit := ⟨7, 0, 0, ()⟩

def params : List JsonValue := [.array [.string "0x1"], .array [.string "0x2"]]

theorem matched : Matched 7 2 [answered 8 "0x02", answered 7 "0x01"]
    [.string "0x01", .string "0x02"] :=
  ⟨rfl, [answered 7 "0x01", answered 8 "0x02"], .swap .., .cons ⟨rfl, rfl, rfl, rfl⟩
    (.cons ⟨rfl, rfl, rfl, rfl⟩ .nil)⟩

theorem in_order_of_requests : (runFrom (rpc.batchRequest "eth_call" params) start).1 =
    .ok [.string "0x01", .string "0x02"] := by
  obtain ⟨-, -, accepts, -, -⟩ := batch_request_matches_ids rpc "eth_call" params start
    (by simp [params]) (by decide) (by decide)
  exact (accepts (by decide) _ rfl).1 _ _ rfl matched

end TwoAnswers

end Usd8Core.Engine
