import Usd8Core.JobApi.SettlementCall
import Usd8Core.Lib.TreeWalk

/-!
# Settlement calls inside a trace

A settlement through a wrapper contract is accepted on the call tree of its mined
transaction.  `traced_settlement` walks the tree and accepts a call of the module that no
reverted call contains; a tree beyond its limits is no evidence either way.
-/

set_option autoImplicit false

namespace Usd8Core.JobApi

open Usd8Core.Lib.ByteWords
open Usd8Core.Lib.CheckedCall
open Usd8Core.Lib.Json
open Usd8Core.Lib.TreeWalk
open Usd8Core.Engine (RpcError)

/-! ## Evidence of the provider -/

/-- Missing or malformed data of the provider is no fault of the artifact. -/
def evidence {α : Type} (result : Verifying α) : Verifying α :=
  result.mapError fun e => match e with
    | .invalid why => .rpc (.invalidResponse "settlement evidence" why)
    | other => other

def evidenceRequire (ok : Prop) [Decidable ok] (why : String) : Verifying Unit :=
  evidence (require ok why)

def evidenceInput (v : JsonValue) : Verifying String := do
  let s ← evidence (text v)
  evidenceRequire (∃ raw ∈ strip0x s, byteCount raw % 2 = 0 ∧ raw.all isHexDigit = true)
    "malformed RPC calldata"
  pure s

def TRACE_METHOD : String := "debug_traceTransaction"

def TRACE_BYTE_CAP : Nat := 2 * 1024 * 1024

def traceUnavailable (message : String) : VerificationError :=
  .rpc (.invalidResponse TRACE_METHOD message)

/-! ## The limits of a trace -/

def saturatingMul (a b : Nat) : Nat := min (a * b) maxU64

/-- The values directly inside of a value. -/
def innerValues : JsonValue → List JsonValue
  | .array items => items
  | .object fields => fields.map Prod.snd
  | _ => []

theorem sizeOf_items (items : List JsonValue) : (items.map sizeOf).sum ≤ sizeOf items := by
  induction items with
  | nil => simp
  | cons item rest ih =>
      simp only [List.map_cons, List.sum_cons, List.cons.sizeOf_spec]
      omega

theorem sizeOf_fields (fields : List (String × JsonValue)) :
    ((fields.map Prod.snd).map sizeOf).sum ≤ sizeOf fields := by
  induction fields with
  | nil => simp
  | cons field rest ih =>
      obtain ⟨name, value⟩ := field
      simp only [List.map_cons, List.sum_cons, List.cons.sizeOf_spec, Prod.mk.sizeOf_spec]
      omega

theorem sizeOf_innerValues (value : JsonValue) :
    ((innerValues value).map sizeOf).sum < sizeOf value := by
  cases value with
  | array items =>
      have bound := sizeOf_items items
      simp only [innerValues, JsonValue.array.sizeOf_spec]
      omega
  | object fields =>
      have bound := sizeOf_fields fields
      simp only [innerValues, JsonValue.object.sizeOf_spec]
      omega
  | _ => simp [innerValues]

/-- The values inside of a value, with their depths. -/
def evidenceTree : Forest (JsonValue × Nat) where
  children node := (innerValues node.1).map (·, node.2 + 1)
  shrinks := ⟨fun node => sizeOf node.1, fun node => by
    simpa [Function.comp_def] using sizeOf_innerValues node.1⟩

/-- What a value itself costs, its texts as if every byte was escaped. -/
def charge : JsonValue → Nat
  | .string s => saturatingAdd 32 (saturatingMul (byteCount s.toList) 6)
  | .object fields => fields.foldl (fun total field =>
      saturatingAdd total (saturatingAdd (saturatingMul (byteCount field.1.toList) 6) 4)) 32
  | _ => 32

structure Accounted where
  nodes : Nat
  budget : Nat

/-- One round of the loop of `bounded_evidence`. -/
def accountValue (state : Accounted) (node : JsonValue × Nat) : Verifying Accounted := do
  let nodes := state.nodes + 1
  revertIf (96 < node.2 ∨ 65536 < nodes) (traceUnavailable "trace depth/node limit")
  revertIf (node.1.asArray.any (65536 < ·.length) = true) (traceUnavailable "trace array limit")
  revertIf (node.1.asObject.any (65536 < ·.length) = true) (traceUnavailable "trace object limit")
  let cost := charge node.1
  revertIf (state.budget < cost) (.rpc (.responseTooLarge TRACE_METHOD TRACE_BYTE_CAP))
  pure ⟨nodes, state.budget - cost⟩

def boundedTrace (value : JsonValue) : Verifying Unit := do
  let _ ← evidenceTree.walk accountValue ⟨0, TRACE_BYTE_CAP⟩ [(value, 0)]
  pure ()

/-! ## The frames of a trace -/

mutual

/-- `a == b`; two numbers are the same where both their readings are. -/
def sameValue : JsonValue → JsonValue → Bool
  | .null, .null => true
  | .bool a, .bool b => a == b
  | .number aU64 aI64, .number bU64 bI64 => aU64 == bU64 && aI64 == bI64
  | .string a, .string b => a == b
  | .array a, .array b => sameItems a b
  | .object a, .object b => sameFields a b
  | _, _ => false

def sameItems : List JsonValue → List JsonValue → Bool
  | [], [] => true
  | a :: restA, b :: restB => sameValue a b && sameItems restA restB
  | _, _ => false

def sameFields : List (String × JsonValue) → List (String × JsonValue) → Bool
  | [], [] => true
  | (nameA, a) :: restA, (nameB, b) :: restB =>
      nameA == nameB && sameValue a b && sameFields restA restB
  | _, _ => false

end

def isFrameType (name : String) : Bool :=
  ["CALL", "STATICCALL", "DELEGATECALL", "CALLCODE", "CREATE", "CREATE2", "SELFDESTRUCT"].contains
    name

/-- The frame carries an error or a revert reason. -/
def failedFrame (frame : JsonValue) : Bool :=
  !(frame.index "error").isNull || !(frame.index "revertReason").isNull

/-- The children that the loop pushes, where it gets to push any. -/
def frameCalls (frame : JsonValue) : List JsonValue :=
  if failedFrame frame then [] else ((frame.get "calls").bind JsonValue.asArray).getD []

theorem sizeOf_lookup {fields : List (String × JsonValue)} {name : String} {value : JsonValue}
    (found : fields.lookup name = some value) : sizeOf value < sizeOf fields := by
  induction fields with
  | nil => cases found
  | cons field rest ih =>
      obtain ⟨key, held⟩ := field
      rw [List.lookup_cons] at found
      simp only [List.cons.sizeOf_spec, Prod.mk.sizeOf_spec]
      split at found
      · cases found
        omega
      · have := ih found
        omega

theorem sizeOf_get {value inner : JsonValue} {name : String} (found : value.get name = some inner) :
    sizeOf inner < sizeOf value := by
  cases value with
  | object fields =>
      have smaller := sizeOf_lookup found
      simp only [JsonValue.object.sizeOf_spec]
      omega
  | _ => cases found

theorem sizeOf_frameCalls (frame : JsonValue) :
    ((frameCalls frame).map sizeOf).sum < sizeOf frame := by
  have positive : 0 < sizeOf frame := by cases frame <;> simp
  unfold frameCalls
  split
  · simpa using positive
  · cases found : frame.get "calls" with
    | none => simpa using positive
    | some inner =>
        have smaller := sizeOf_get found
        cases inner with
        | array items =>
            have bound := sizeOf_items items
            simp only [JsonValue.array.sizeOf_spec] at smaller
            simp only [Option.bind_some, JsonValue.asArray, Option.getD_some]
            omega
        | _ => simpa [JsonValue.asArray] using positive

/-- The frames below a frame that the loop gets to see. -/
def frameTree : Forest JsonValue where
  children := frameCalls
  shrinks := ⟨sizeOf, sizeOf_frameCalls⟩

section Traced

variable (keccak256 : List Byte → Hash) (policy : PromotionPolicy) (candidate : Candidate)

/-- A call of the module that the candidate matches. -/
def isSettlementCall (frame : JsonValue) : Verifying Bool :=
  if (frame.index "type").asString = some "CALL" then do
    let recipient ← evidence (address (frame.index "to"))
    if recipient = policy.defiInsurance then do
      let input ← evidenceInput (frame.index "input")
      (settlementCallMatches keccak256 candidate input).mapError .panicked
    else pure false
  else pure false

/-- One round of the loop, whose error is what the function returns. -/
def visitFrame (_ : Unit) (frame : JsonValue) : Except (Verifying Bool) Unit := do
  revertIf ((frame.index "type").asString.all isFrameType = false ∨
      (frame.index "type").asString = none)
    (.error (traceUnavailable "malformed callTracer frame"))
  if failedFrame frame then pure ()
  else do
    let isCall ← (isSettlementCall keccak256 policy candidate frame).mapError .error
    revertIf (isCall = true) (.ok true)
    revertIf ((frame.get "calls").any (·.asArray.isNone) = true)
      (.error (traceUnavailable "malformed callTracer children"))

/-- The type and the recipient of the outer frame of a transaction. -/
def outerFrame (tx receipt : JsonValue) : String × JsonValue :=
  if (tx.index "to").isNull then ("CREATE", receipt.index "contractAddress")
  else ("CALL", tx.index "to")

def isBound (tx receipt trace : JsonValue) : Verifying Bool := do
  let outer := outerFrame tx receipt
  if (trace.index "type").asString = some outer.1 then do
    let sender ← evidence (address (trace.index "from"))
    let txSender ← evidence (address (tx.index "from"))
    if sender = txSender then do
      let recipient ← evidence (address (trace.index "to"))
      let txRecipient ← evidence (address outer.2)
      if recipient = txRecipient then do
        let input ← evidenceInput (trace.index "input")
        let txInput ← evidenceInput (tx.index "input")
        pure (eqIgnoreAsciiCase input txInput && sameValue (trace.index "value") (tx.index "value"))
      else pure false
    else pure false
  else pure false

def traceParams (tx : JsonValue) : JsonValue :=
  .array [tx.index "hash", .object [("tracer", .string "callTracer"), ("timeout", .string "5s"),
    ("tracerConfig", .object [("onlyTopCall", .bool false)])]]

def tracedSettlement (request : String → JsonValue → Except RpcError JsonValue)
    (tx receipt : JsonValue) : Verifying Bool := do
  let trace ← (request TRACE_METHOD (traceParams tx)).mapError .rpc
  boundedTrace trace
  revertIf (trace.isObject = false ∨ (trace.index "type").asString = none)
    (traceUnavailable "callTracer result unavailable")
  let bound ← isBound tx receipt trace
  evidenceRequire (bound = true) "trace transaction binding"
  match frameTree.walk (visitFrame keccak256 policy candidate) () [trace] with
  | .ok () => pure false
  | .error returned => returned

end Traced

/-! ## What a trace stands for -/

inductive FrameKind where
  | call
  | staticcall
  | delegatecall
  | callcode
  | create
  | create2
  | selfdestruct
  deriving DecidableEq

def FrameKind.name : FrameKind → String
  | .call => "CALL"
  | .staticcall => "STATICCALL"
  | .delegatecall => "DELEGATECALL"
  | .callcode => "CALLCODE"
  | .create => "CREATE"
  | .create2 => "CREATE2"
  | .selfdestruct => "SELFDESTRUCT"

/-- A frame of an execution and the frames that it entered. -/
inductive CallTree where
  | frame (kind : FrameKind) (recipient : Address) (input : String) (reverted : Bool)
      (calls : List CallTree)

namespace CallTree

def kind : CallTree → FrameKind
  | .frame kind _ _ _ _ => kind

def recipient : CallTree → Address
  | .frame _ recipient _ _ _ => recipient

def input : CallTree → String
  | .frame _ _ input _ _ => input

def reverted : CallTree → Bool
  | .frame _ _ _ reverted _ => reverted

def calls : CallTree → List CallTree
  | .frame _ _ _ _ calls => calls

/-- The frame is in the tree, below the ancestors. -/
inductive At (tree : CallTree) : List CallTree → CallTree → Prop
  | root : At tree [] tree
  | call {ancestors : List CallTree} {frame child : CallTree} (above : At tree ancestors frame)
      (entered : child ∈ frame.calls) : At tree (frame :: ancestors) child

/-- Some call settled the candidate, and nothing undid it. -/
def Settles (keccak256 : List Byte → Hash) (policy : PromotionPolicy) (candidate : Candidate)
    (tree : CallTree) : Prop :=
  ∃ ancestors frame, tree.At ancestors frame ∧ frame.kind = .call ∧
    frame.recipient = policy.defiInsurance ∧
    settlementCallMatches keccak256 candidate frame.input = .ok true ∧
    frame.reverted = false ∧ ∀ ancestor ∈ ancestors, ancestor.reverted = false

theorem At.enclosed {parent tree frame : CallTree} {ancestors : List CallTree}
    (entered : tree ∈ parent.calls) (inTree : tree.At ancestors frame) :
    parent.At (ancestors ++ [parent]) frame := by
  induction inTree with
  | root => exact .call .root entered
  | call above isChild ih => exact .call ih isChild

end CallTree

/-- The tracer writes the tree as the value. -/
inductive Traces : CallTree → JsonValue → Prop
  | frame {kind : FrameKind} {recipient : Address} {input : String} {reverted : Bool}
      {calls : List CallTree} {json : JsonValue} {jsonCalls : List JsonValue}
      (type : json.index "type" = .string kind.name)
      (failed : failedFrame json = reverted)
      (addressed : kind = .call → address (json.index "to") = .ok recipient)
      (called : kind = .call → evidenceInput (json.index "input") = .ok input)
      (nested : json.get "calls" = some (.array jsonCalls) ∨
        json.get "calls" = none ∧ jsonCalls = [])
      (each : List.Forall₂ Traces calls jsonCalls) :
      Traces (.frame kind recipient input reverted calls) json

/-- The outer frame of the trace is the transaction. -/
structure BoundTo (tx receipt trace : JsonValue) : Prop where
  type : (trace.index "type").asString = some (outerFrame tx receipt).1
  sender : ∃ sender, address (trace.index "from") = .ok sender ∧
    address (tx.index "from") = .ok sender
  recipient : ∃ recipient, address (trace.index "to") = .ok recipient ∧
    address (outerFrame tx receipt).2 = .ok recipient
  input : ∃ input txInput, evidenceInput (trace.index "input") = .ok input ∧
    evidenceInput (tx.index "input") = .ok txInput ∧ eqIgnoreAsciiCase input txInput = true
  value : sameValue (trace.index "value") (tx.index "value") = true

/-- The limits on the depth, the width and the number of the values in a trace, and on their
texts. -/
structure WithinLimits (trace : JsonValue) : Prop where
  depth : ∀ node ∈ evidenceTree.nodes (trace, 0), node.2 ≤ 96
  width : ∀ node ∈ evidenceTree.nodes (trace, 0), (innerValues node.1).length ≤ 65536
  count : (evidenceTree.nodes (trace, 0)).length ≤ 65536
  texts : ((evidenceTree.nodes (trace, 0)).map fun node => charge node.1).sum ≤ TRACE_BYTE_CAP

/-! ## The limits -/

theorem mem_evidence_inner {trace value : JsonValue} {depth : Nat}
    (member : (value, depth) ∈ evidenceTree.nodes (trace, 0)) :
    ∀ inner ∈ innerValues value, (inner, depth + 1) ∈ evidenceTree.nodes (trace, 0) := by
  intro inner isInner
  exact evidenceTree.mem_nodes.mpr
    ((evidenceTree.mem_nodes.mp member).tail (List.mem_map.mpr ⟨inner, isInner, rfl⟩))

theorem tooWide_iff (value : JsonValue) :
    (¬ value.asArray.any (65536 < ·.length) = true ∧ ¬ value.asObject.any (65536 < ·.length) = true) ↔
      (innerValues value).length ≤ 65536 := by
  cases value <;> simp [JsonValue.asArray, JsonValue.asObject, innerValues]

theorem accountValue_ok_iff (state final : Accounted) (node : JsonValue × Nat) :
    accountValue state node = .ok final ↔
      (node.2 ≤ 96 ∧ state.nodes + 1 ≤ 65536) ∧ (innerValues node.1).length ≤ 65536 ∧
        charge node.1 ≤ state.budget ∧
        final = ⟨state.nodes + 1, state.budget - charge node.1⟩ := by
  simp only [accountValue, bind_ok_iff, revertIf_ok_iff, pure_ok_iff, not_or, Nat.not_lt,
    ← tooWide_iff, exists_const, and_assoc, eq_comm (a := final)]

/-- The loop accepts as many values as the limits allow. -/
theorem account_ok_iff (nodes : List (JsonValue × Nat)) (state : Accounted)
    (few : state.nodes ≤ 65536) :
    (∃ final, nodes.foldlM accountValue state = .ok final) ↔
      (∀ node ∈ nodes, node.2 ≤ 96) ∧ (∀ node ∈ nodes, (innerValues node.1).length ≤ 65536) ∧
        state.nodes + nodes.length ≤ 65536 ∧
        (nodes.map fun node => charge node.1).sum ≤ state.budget := by
  induction nodes generalizing state with
  | nil => simpa [pure, Except.pure] using few
  | cons node rest ih =>
      simp only [List.foldlM_cons, bind_ok_iff, accountValue_ok_iff, List.forall_mem_cons,
        List.map_cons, List.sum_cons, List.length_cons]
      constructor
      · rintro ⟨final, _, ⟨⟨shallow, fewNodes⟩, narrow, cheap, rfl⟩, run⟩
        obtain ⟨depths, widths, count, texts⟩ := (ih _ fewNodes).mp ⟨final, run⟩
        exact ⟨⟨shallow, depths⟩, ⟨narrow, widths⟩, by simp at count; omega, by simp at texts; omega⟩
      · rintro ⟨⟨shallow, depths⟩, ⟨narrow, widths⟩, count, texts⟩
        have fewNodes : state.nodes + 1 ≤ 65536 := by omega
        obtain ⟨final, run⟩ := (ih ⟨state.nodes + 1, state.budget - charge node.1⟩ fewNodes).mpr
          ⟨depths, widths, by simp; omega, by simp; omega⟩
        exact ⟨final, _, ⟨⟨shallow, fewNodes⟩, narrow, by omega, rfl⟩, run⟩

theorem boundedTrace_ok_iff (trace : JsonValue) :
    boundedTrace trace = .ok () ↔ WithinLimits trace := by
  have counted := account_ok_iff (evidenceTree.nodes (trace, 0)) ⟨0, TRACE_BYTE_CAP⟩ (by simp)
  simp only [boundedTrace, evidenceTree.walk_eq_foldlM, bind_ok_iff, pure_ok_iff, and_true,
    List.flatMap_cons, List.flatMap_nil, List.append_nil]
  rw [counted, Nat.zero_add]
  exact ⟨fun ⟨depth, width, count, texts⟩ => ⟨depth, width, count, texts⟩,
    fun limits => ⟨limits.depth, limits.width, limits.count, limits.texts⟩⟩

/-! ## The texts within the limits -/

theorem length_le_byteCount (chars : List Char) : chars.length ≤ byteCount chars := by
  unfold byteCount
  induction chars with
  | nil => simp
  | cons c rest ih =>
      have positive := c.utf8Size_pos
      simp only [List.length_cons, List.map_cons, List.sum_cons]
      omega

theorem WithinLimits.text_length {trace : JsonValue} {s : String} {depth : Nat}
    (limits : WithinLimits trace) (member : (.string s, depth) ∈ evidenceTree.nodes (trace, 0)) :
    s.toList.length < 2 ^ 64 := by
  have cheap : charge (.string s) ≤ TRACE_BYTE_CAP :=
    (List.le_sum_of_mem (List.mem_map.mpr ⟨_, member, rfl⟩)).trans limits.texts
  have characters := length_le_byteCount s.toList
  simp only [charge, saturatingAdd, saturatingMul, TRACE_BYTE_CAP, maxU64] at cheap
  omega

theorem mem_innerValues {value inner : JsonValue} {name : String}
    (found : value.get name = some inner) : inner ∈ innerValues value := by
  cases value with
  | object fields =>
      have entry : (name, inner) ∈ fields := List.lookup_eq_some_iff.mp found |>.elim
        fun before ⟨later, whole, _⟩ => by simp [whole]
      exact List.mem_map_of_mem (f := Prod.snd) entry
  | _ => cases found

theorem mem_innerValues_index {value : JsonValue} {name s : String}
    (held : value.index name = .string s) : .string s ∈ innerValues value := by
  unfold JsonValue.index at held
  cases found : value.get name with
  | none =>
      rw [found] at held
      cases held
  | some inner =>
      rw [found] at held
      cases held
      exact mem_innerValues found

/-- A frame that the loop gets to see is one of the values in the trace. -/
theorem mem_evidence_of_frame {trace frame : JsonValue} (reaches : frameTree.Reaches trace frame) :
    ∃ depth, (frame, depth) ∈ evidenceTree.nodes (trace, 0) := by
  induction reaches with
  | refl => exact ⟨0, evidenceTree.mem_nodes.mpr .refl⟩
  | tail above isChild ih =>
      obtain ⟨depth, member⟩ := ih
      simp only [frameTree, frameCalls] at isChild
      split at isChild
      · cases isChild
      next frame child live =>
        cases found : frame.get "calls" with
        | none => simp [found] at isChild
        | some inner =>
            cases inner with
            | array items =>
                simp only [found, Option.bind_some, JsonValue.asArray, Option.getD_some] at isChild
                have outer := mem_evidence_inner member _ (mem_innerValues found)
                exact ⟨_, mem_evidence_inner outer _ isChild⟩
            | _ => simp [found, JsonValue.asArray] at isChild

/-! ## The outer frame -/

theorem evidence_ok_iff {α : Type} (call : Verifying α) (result : α) :
    evidence call = .ok result ↔ call = .ok result :=
  mapError_ok_iff _ call result

theorem isBound_iff (tx receipt trace : JsonValue) :
    isBound tx receipt trace = .ok true ↔ BoundTo tx receipt trace := by
  simp only [isBound, ite_ok_iff, bind_ok_iff, evidence_ok_iff, pure_ok_iff, Bool.and_eq_true,
    Bool.false_eq_true, and_false, or_false]
  constructor
  · rintro ⟨type, sender, fromRead, _, txFromRead, rfl, recipient, toRead, _, txToRead, rfl, input,
      inputRead, txInput, txInputRead, same, value⟩
    exact ⟨type, ⟨sender, fromRead, txFromRead⟩, ⟨recipient, toRead, txToRead⟩,
      ⟨input, txInput, inputRead, txInputRead, same⟩, value⟩
  · rintro ⟨type, ⟨sender, fromRead, txFromRead⟩, ⟨recipient, toRead, txToRead⟩,
      ⟨input, txInput, inputRead, txInputRead, same⟩, value⟩
    exact ⟨type, sender, fromRead, sender, txFromRead, rfl, recipient, toRead, recipient, txToRead,
      rfl, input, inputRead, txInput, txInputRead, same, value⟩

theorem isObject_of_type {value : JsonValue} {name kind : String}
    (typed : (value.index name).asString = some kind) : value.isObject = true := by
  cases value with
  | object fields => rfl
  | _ => simp [JsonValue.index, JsonValue.get, JsonValue.asString] at typed

/-! ## The frames -/

theorem isFrameType_name (kind : FrameKind) : isFrameType kind.name = true := by
  cases kind <;> decide

theorem name_eq_call_iff (kind : FrameKind) : kind.name = "CALL" ↔ kind = .call := by
  cases kind <;> decide

theorem evidenceInput_text {v : JsonValue} {s : String} (read : evidenceInput v = .ok s) :
    v = .string s := by
  obtain ⟨_, textRead, read⟩ := (bind_ok_iff _ _ _).mp read
  obtain ⟨_, _, read⟩ := (bind_ok_iff _ _ _).mp read
  cases (pure_ok_iff _ _).mp read
  have present := (orRevert_ok_iff _ _ _).mp ((evidence_ok_iff _ _).mp textRead)
  cases v with
  | string value => cases present; rfl
  | _ => cases present

section Frames

variable {keccak256 : List Byte → Hash} {policy : PromotionPolicy} {candidate : Candidate}

/-- The frame alone, whatever is above it. -/
structure CallTree.IsSettlement (keccak256 : List Byte → Hash) (policy : PromotionPolicy)
    (candidate : Candidate) (frame : CallTree) : Prop where
  kind : frame.kind = .call
  recipient : frame.recipient = policy.defiInsurance
  matched : settlementCallMatches keccak256 candidate frame.input = .ok true
  live : frame.reverted = false

/-- The frames that the loop visits below a frame are the ones it entered, unless it failed. -/
theorem frameCalls_traces {frame : CallTree} {json : JsonValue} (traces : Traces frame json) :
    (frame.reverted = true ∧ frameCalls json = []) ∨
      (frame.reverted = false ∧ List.Forall₂ Traces frame.calls (frameCalls json)) := by
  cases traces with
  | frame type failed addressed called nested each =>
      subst failed
      simp only [CallTree.reverted, CallTree.calls, frameCalls]
      cases failedFrame json with
      | true => exact .inl ⟨rfl, rfl⟩
      | false =>
          refine .inr ⟨rfl, ?_⟩
          rcases nested with found | ⟨absent, rfl⟩
          · simpa [found, JsonValue.asArray] using each
          · simpa [absent] using each

theorem isSettlementCall_traces (policy : PromotionPolicy) {frame : CallTree} {json : JsonValue}
    (matcher : ∀ input, json.index "input" = .string input →
      ∃ result, settlementCallMatches keccak256 candidate input = .ok result)
    (traces : Traces frame json) :
    ∃ result, isSettlementCall keccak256 policy candidate json = .ok result ∧
      (result = true ↔ frame.kind = .call ∧ frame.recipient = policy.defiInsurance ∧
        settlementCallMatches keccak256 candidate frame.input = .ok true) := by
  cases traces with
  | @frame kind recipient input reverted calls json jsonCalls type failed addressed called nested
      each =>
      simp only [isSettlementCall, type, JsonValue.asString, Option.some.injEq, name_eq_call_iff,
        CallTree.kind, CallTree.recipient, CallTree.input]
      by_cases isCall : kind = .call
      · have toRead := (evidence_ok_iff _ _).mpr (addressed isCall)
        rw [if_pos isCall, toRead]
        by_cases isModule : recipient = policy.defiInsurance
        · obtain ⟨result, ran⟩ := matcher input (evidenceInput_text (called isCall))
          refine ⟨result, ?_, by simp [isCall, isModule, ran]⟩
          simp [Bind.bind, Except.bind, isModule, called isCall, ran, Except.mapError]
        · exact ⟨false, by simp [Bind.bind, Except.bind, isModule, pure, Except.pure],
            by simp [isModule]⟩
      · exact ⟨false, by simp [isCall, pure, Except.pure], by simp [isCall]⟩

theorem visitFrame_traces {frame : CallTree} {json : JsonValue}
    (matcher : ∀ input, json.index "input" = .string input →
      ∃ result, settlementCallMatches keccak256 candidate input = .ok result)
    (traces : Traces frame json) :
    (visitFrame keccak256 policy candidate () json = .ok () ∧
      ¬ frame.IsSettlement keccak256 policy candidate) ∨
    (visitFrame keccak256 policy candidate () json = .error (.ok true) ∧
      frame.IsSettlement keccak256 policy candidate) := by
  obtain ⟨result, decided, isCall⟩ := isSettlementCall_traces policy matcher traces
  cases traces with
  | @frame kind recipient input reverted calls json jsonCalls type failed addressed called nested
      each =>
      have noChildError : (json.get "calls").any (·.asArray.isNone) = false := by
        rcases nested with found | ⟨absent, -⟩
        · simp [found, JsonValue.asArray]
        · simp [absent]
      have wellTyped : ¬ ((json.index "type").asString.all isFrameType = false ∨
          (json.index "type").asString = none) := by
        simp [type, JsonValue.asString, isFrameType_name]
      simp only [visitFrame, revertIf, if_neg wellTyped, failed]
      cases reverted with
      | true => exact .inl ⟨rfl, fun settlement => by cases settlement.live⟩
      | false =>
          rw [decided]
          cases result with
          | true =>
              obtain ⟨kindCall, isModule, matched⟩ := isCall.mp rfl
              exact .inr ⟨rfl, kindCall, isModule, matched, rfl⟩
          | false =>
              refine .inl ⟨?_, fun settlement => ?_⟩
              · simp [Bind.bind, Except.bind, Except.mapError, noChildError]
              · cases isCall.mpr ⟨settlement.kind, settlement.recipient, settlement.matched⟩

end Frames

/-! ## The walk -/

/-- What the loop gets to see is in the tree, below ancestors that did not fail. -/
theorem at_of_reaches {tree : CallTree} {trace json : JsonValue} (traces : Traces tree trace)
    (reaches : frameTree.Reaches trace json) :
    ∃ ancestors frame, tree.At ancestors frame ∧ Traces frame json ∧
      ∀ ancestor ∈ ancestors, ancestor.reverted = false := by
  induction reaches with
  | refl => exact ⟨[], tree, .root, traces, by simp⟩
  | tail above isChild ih =>
      obtain ⟨ancestors, frame, inTree, frameTraces, live⟩ := ih
      rcases frameCalls_traces frameTraces with ⟨-, none⟩ | ⟨isLive, each⟩
      · have seen : _ ∈ frameCalls _ := isChild
        rw [none] at seen
        cases seen
      · obtain ⟨child, entered, childTraces⟩ := exists_left_of_mem each isChild
        exact ⟨frame :: ancestors, child, .call inTree entered, childTraces,
          List.forall_mem_cons.mpr ⟨isLive, live⟩⟩

theorem reaches_of_at {tree frame : CallTree} {trace : JsonValue} {ancestors : List CallTree}
    (traces : Traces tree trace) (inTree : tree.At ancestors frame)
    (live : ∀ ancestor ∈ ancestors, ancestor.reverted = false) :
    ∃ json, frameTree.Reaches trace json ∧ Traces frame json := by
  induction inTree with
  | root => exact ⟨trace, .refl, traces⟩
  | call above entered ih =>
      obtain ⟨isLive, others⟩ := List.forall_mem_cons.mp live
      obtain ⟨json, reaches, frameTraces⟩ := ih others
      rcases frameCalls_traces frameTraces with ⟨failed, -⟩ | ⟨-, each⟩
      · rw [isLive] at failed
        cases failed
      · obtain ⟨childJson, isChild, childTraces⟩ := exists_right_of_mem each entered
        exact ⟨childJson, reaches.tail isChild, childTraces⟩

section Walk

variable {keccak256 : List Byte → Hash} {ecdsa : Ecdsa} {policy : PromotionPolicy}
  {incidentId : String} {artifact : JsonValue} {candidate : Candidate} {tree : CallTree}
  {tx receipt trace : JsonValue} {request : String → JsonValue → Except RpcError JsonValue}

theorem walk_settles
    (built : verifyCandidate keccak256 ecdsa policy incidentId artifact = .ok candidate)
    (traces : Traces tree trace) (limits : WithinLimits trace) :
    (frameTree.walk (visitFrame keccak256 policy candidate) () [trace] = .error (.ok true) ∧
      tree.Settles keccak256 policy candidate) ∨
    (frameTree.walk (visitFrame keccak256 policy candidate) () [trace] = .ok () ∧
      ¬ tree.Settles keccak256 policy candidate) := by
  rw [frameTree.walk_eq_foldlM, List.flatMap_cons, List.flatMap_nil, List.append_nil]
  have visited : ∀ json ∈ frameTree.nodes trace, ∀ frame, Traces frame json →
      (visitFrame keccak256 policy candidate () json = .ok () ∧
        ¬ frame.IsSettlement keccak256 policy candidate) ∨
      (visitFrame keccak256 policy candidate () json = .error (.ok true) ∧
        frame.IsSettlement keccak256 policy candidate) := by
    intro json member frame frameTraces
    obtain ⟨depth, inside⟩ := mem_evidence_of_frame (frameTree.mem_nodes.mp member)
    refine visitFrame_traces (fun input held => ?_) frameTraces
    have short := limits.text_length (mem_evidence_inner inside _ (mem_innerValues_index held))
    obtain ⟨root, -, decided⟩ := matchCall_decides built short
    obtain ⟨result, ran, -⟩ := decided.result
    exact ⟨result, ran⟩
  have decided : ∀ json ∈ frameTree.nodes trace,
      visitFrame keccak256 policy candidate () json = .ok () ∨
      visitFrame keccak256 policy candidate () json = .error (.ok true) := by
    intro json member
    obtain ⟨-, frame, -, frameTraces, -⟩ := at_of_reaches traces (frameTree.mem_nodes.mp member)
    exact (visited json member frame frameTraces).imp And.left And.left
  rcases foldlM_search decided with ⟨ended, json, member, isFound⟩ | ⟨passed, none⟩
  · refine .inl ⟨ended, ?_⟩
    obtain ⟨ancestors, frame, inTree, frameTraces, live⟩ :=
      at_of_reaches traces (frameTree.mem_nodes.mp member)
    rcases visited json member frame frameTraces with ⟨ran, -⟩ | ⟨-, settlement⟩
    · rw [ran] at isFound
      cases isFound
    · exact ⟨ancestors, frame, inTree, settlement.kind, settlement.recipient, settlement.matched,
        settlement.live, live⟩
  · refine .inr ⟨passed, fun ⟨ancestors, frame, inTree, kind, recipient, matched, isLive, live⟩ => ?_⟩
    obtain ⟨json, reaches, frameTraces⟩ := reaches_of_at traces inTree live
    have member := frameTree.mem_nodes.mpr reaches
    rcases visited json member frame frameTraces with ⟨-, other⟩ | ⟨isFound, -⟩
    · exact other ⟨kind, recipient, matched, isLive⟩
    · exact none json member isFound

/-- The trace of a bound transaction, where the walk decides. -/
theorem tracedSettlement_bound (answered : request TRACE_METHOD (traceParams tx) = .ok trace)
    (bound : BoundTo tx receipt trace) :
    tracedSettlement keccak256 policy candidate request tx receipt = (do
      boundedTrace trace
      match frameTree.walk (visitFrame keccak256 policy candidate) () [trace] with
      | .ok () => pure false
      | .error returned => returned) := by
  have usable : ¬ (trace.isObject = false ∨ (trace.index "type").asString = none) := by
    simp [isObject_of_type bound.type, bound.type]
  have isBoundTo := (isBound_iff tx receipt trace).mpr bound
  simp only [tracedSettlement, answered, Except.mapError, Bind.bind, Except.bind]
  cases boundedTrace trace with
  | error error => rfl
  | ok _ =>
      simp only [revertIf, if_neg usable, isBoundTo, evidenceRequire, evidence, require, not_true,
        if_false, Except.mapError]

/-- Within the limits, the verifier accepts a trace exactly when an unreverted call of the
module settled the candidate; beyond them it refuses to say. -/
theorem traced_settlement_decides
    (built : verifyCandidate keccak256 ecdsa policy incidentId artifact = .ok candidate)
    (answered : request TRACE_METHOD (traceParams tx) = .ok trace)
    (traces : Traces tree trace) (bound : BoundTo tx receipt trace) :
    (WithinLimits trace → ∃ accepted,
      tracedSettlement keccak256 policy candidate request tx receipt = .ok accepted ∧
      (accepted = true ↔ tree.Settles keccak256 policy candidate)) ∧
    (¬ WithinLimits trace → ∃ error,
      tracedSettlement keccak256 policy candidate request tx receipt = .error error) := by
  rw [tracedSettlement_bound answered bound]
  constructor
  · intro limits
    rw [(boundedTrace_ok_iff trace).mpr limits]
    rcases walk_settles built traces limits with ⟨walked, settles⟩ | ⟨walked, unsettled⟩
    · exact ⟨true, by rw [walked]; rfl, by simp [settles]⟩
    · exact ⟨false, by rw [walked]; rfl, by simp [unsettled]⟩
  · intro beyond
    cases checked : boundedTrace trace with
    | ok _ => exact absurd ((boundedTrace_ok_iff trace).mp checked) beyond
    | error error => exact ⟨error, rfl⟩

end Walk

/-! ## Two traces -/

theorem address_addressHex (value : Address) :
    address (.string (addressHex value)) = .ok value := by
  simp [address, text, JsonValue.asString, orRevert, addressFromText_addressHex, Bind.bind,
    Except.bind]

theorem isHexDigit_hexDigit : ∀ value < 16, isHexDigit (hexDigit value) = true := by
  decide

theorem evidenceInput_hexText (bytes : List Byte) :
    evidenceInput (.string ("0x" ++ hexEncode bytes)) = .ok ("0x" ++ hexEncode bytes) := by
  have stripped : strip0x ("0x" ++ hexEncode bytes) = some (bytes.flatMap hexByte) := by
    simp only [strip0x, hexText_toList]
  have digits : (bytes.flatMap hexByte).all isHexDigit = true := by
    simp only [List.all_flatMap, List.all_eq_true, hexByte, List.forall_mem_cons]
    intro byte member
    have bound := byte.toNat_lt
    exact ⟨isHexDigit_hexDigit _ (by omega), isHexDigit_hexDigit _ (by omega), by simp⟩
  have wellFormed : ∃ raw ∈ strip0x ("0x" ++ hexEncode bytes),
      byteCount raw % 2 = 0 ∧ raw.all isHexDigit = true :=
    ⟨_, stripped, by rw [byteCount_hexBytes]; omega, digits⟩
  simp only [evidenceInput, text, JsonValue.asString, orRevert, evidence, evidenceRequire, require,
    revertIf, not_true, if_false, wellFormed, Except.mapError, Bind.bind, Except.bind]
  rfl

namespace SampleTrace

open SampleCall (module policy)

/-- A frame as the tracer writes it. -/
def frameJson (kind : FrameKind) (sender recipient : Address) (input : List Byte)
    (reverted : Bool) (calls : List JsonValue) : JsonValue := .object
  [("from", .string (addressHex sender)), ("to", .string (addressHex recipient)),
    ("input", .string ("0x" ++ hexEncode input)), ("value", .string "0x0"),
    ("type", .string kind.name),
    ("error", if reverted then .string "execution reverted" else .null), ("calls", .array calls)]

theorem traces_frameJson {kind : FrameKind} {sender recipient : Address} {input : List Byte}
    {reverted : Bool} {calls : List CallTree} {jsonCalls : List JsonValue}
    (each : List.Forall₂ Traces calls jsonCalls) :
    Traces (.frame kind recipient ("0x" ++ hexEncode input) reverted calls)
      (frameJson kind sender recipient input reverted jsonCalls) := by
  refine .frame (by rfl) ?_ (fun _ => address_addressHex recipient)
    (fun _ => evidenceInput_hexText input) (.inl rfl) each
  cases reverted <;> rfl

theorem charge_string_le {s : String} {length : Nat} (short : byteCount s.toList ≤ length) :
    charge (.string s) ≤ 32 + 6 * length := by
  simp only [charge, saturatingAdd, saturatingMul]
  omega

/-- Bounds on the values inside of a value. -/
structure Costs (value : JsonValue) (height count texts : Nat) : Prop where
  shallow : ∀ depth, ∀ node ∈ evidenceTree.nodes (value, depth), node.2 ≤ depth + height
  narrow : ∀ depth, ∀ node ∈ evidenceTree.nodes (value, depth),
    (innerValues node.1).length ≤ 65536
  few : ∀ depth, (evidenceTree.nodes (value, depth)).length ≤ count
  cheap : ∀ depth, ((evidenceTree.nodes (value, depth)).map fun node => charge node.1).sum ≤ texts

theorem nodes_value (value : JsonValue) (depth : Nat) :
    evidenceTree.nodes (value, depth) = (value, depth) ::
      (innerValues value).reverse.flatMap fun inner => evidenceTree.nodes (inner, depth + 1) := by
  rw [evidenceTree.nodes_eq]
  simp [evidenceTree, ← List.map_reverse, List.flatMap_map]

theorem Costs.leaf {value : JsonValue} {texts : Nat} (isLeaf : innerValues value = [])
    (cheap : charge value ≤ texts) : Costs value 0 1 texts := by
  constructor <;> intro depth <;> rw [nodes_value, isLeaf] <;> simp [isLeaf, cheap]

theorem Costs.inner {value : JsonValue} {height own : Nat} (count texts : JsonValue → Nat)
    (each : ∀ inner ∈ innerValues value, Costs inner height (count inner) (texts inner))
    (narrow : (innerValues value).length ≤ 65536) (cheap : charge value ≤ own) :
    Costs value (height + 1) (1 + ((innerValues value).map count).sum)
      (own + ((innerValues value).map texts).sum) where
  shallow depth node member := by
    rw [nodes_value, List.mem_cons, List.mem_flatMap] at member
    rcases member with rfl | ⟨inner, isInner, below⟩
    · simp
    · have bound := (each inner (List.mem_reverse.mp isInner)).shallow _ node below
      omega
  narrow depth node member := by
    rw [nodes_value, List.mem_cons, List.mem_flatMap] at member
    rcases member with rfl | ⟨inner, isInner, below⟩
    · exact narrow
    · exact (each inner (List.mem_reverse.mp isInner)).narrow _ node below
  few depth := by
    have bound : ((innerValues value).map fun inner =>
        (evidenceTree.nodes (inner, depth + 1)).length).sum ≤ ((innerValues value).map count).sum :=
      List.sum_le_sum fun inner isInner => (each inner isInner).few _
    rw [nodes_value, List.length_cons, List.length_flatMap, List.map_reverse, List.sum_reverse]
    omega
  cheap depth := by
    have bound : ((innerValues value).map fun inner =>
        ((evidenceTree.nodes (inner, depth + 1)).map fun node => charge node.1).sum).sum ≤
          ((innerValues value).map texts).sum :=
      List.sum_le_sum fun inner isInner => (each inner isInner).cheap _
    rw [nodes_value, List.map_cons, List.sum_cons, List.map_flatMap, List.flatMap_def,
      List.sum_flatten, List.map_map, List.map_reverse, List.sum_reverse]
    exact Nat.add_le_add cheap bound

theorem Costs.mono {value : JsonValue} {height higher count more texts longer : Nat}
    (costs : Costs value height count texts) (heights : height ≤ higher) (counts : count ≤ more)
    (lengths : texts ≤ longer) : Costs value higher more longer where
  shallow depth node member := (costs.shallow depth node member).trans (by omega)
  narrow := costs.narrow
  few depth := (costs.few depth).trans counts
  cheap depth := (costs.cheap depth).trans lengths

theorem byteCount_addressHex (value : Address) : byteCount (addressHex value).toList = 42 := by
  have digits : byteCount ((beBytes 20 value.val).flatMap hexByte) = 40 := by
    simp [byteCount_hexBytes]
  have zero : '0'.utf8Size = 1 := by decide
  have x : 'x'.utf8Size = 1 := by decide
  simp [addressHex, byteCount, zero, x] at digits ⊢
  omega

theorem charge_hexText {input : List Byte} (short : input.length ≤ 270) :
    charge (.string ("0x" ++ hexEncode input)) ≤ 3300 := by
  have digits := byteCount_hexBytes input
  have zero : '0'.utf8Size = 1 := by decide
  have x : 'x'.utf8Size = 1 := by decide
  refine (charge_string_le (Nat.le_refl _)).trans ?_
  rw [hexText_toList]
  simp [byteCount, zero, x] at digits ⊢
  omega

/-- One value for the list of a frame's calls and another for its other fields. -/
def ofField (ofCalls ofOther : Nat) : JsonValue → Nat
  | .array _ => ofCalls
  | _ => ofOther

/-- A frame whose calls have the same bounds. -/
theorem costs_frameJson {kind : FrameKind} {sender recipient : Address} {input : List Byte}
    {reverted : Bool} {calls : List JsonValue} {height count texts : Nat}
    (short : input.length ≤ 270) (few : calls.length ≤ 65536)
    (each : ∀ call ∈ calls, Costs call height count texts) :
    Costs (frameJson kind sender recipient input reverted calls) (height + 2)
      (8 + calls.length * count) (21000 + calls.length * texts) := by
  have listed : Costs (.array calls) (height + 1) (1 + calls.length * count)
      (32 + calls.length * texts) := by
    have inner : Costs (.array calls) (height + 1) _ _ :=
      Costs.inner (fun _ => count) (fun _ => texts) each few (Nat.le_refl 32)
    simpa [innerValues] using inner
  have leaf : ∀ value, innerValues value = [] → charge value ≤ 3300 →
      Costs value (height + 1) 1 3300 := fun value isLeaf cheap =>
    (Costs.leaf isLeaf cheap).mono (by omega) (Nat.le_refl _) (Nat.le_refl _)
  have names : charge (frameJson kind sender recipient input reverted calls) ≤ 240 := by
    simp only [frameJson, charge, List.foldl_cons, List.foldl_nil]
    decide
  have inner : Costs (frameJson kind sender recipient input reverted calls) (height + 2) _ _ :=
    Costs.inner (ofField (1 + calls.length * count) 1)
      (ofField (32 + calls.length * texts) 3300) ?_ (by simp [frameJson, innerValues]) names
  · cases reverted
    all_goals
      refine inner.mono (Nat.le_refl _) ?_ ?_
      all_goals
        simp [frameJson, innerValues, ofField]
        omega
  · simp only [frameJson, innerValues, ofField, List.map_cons, List.map_nil, List.forall_mem_cons]
    have addressed (a : Address) : Costs (.string (addressHex a)) (height + 1) 1 3300 :=
      leaf _ rfl ((charge_string_le (byteCount_addressHex a).le).trans (by omega))
    have short (s : String) (bound : byteCount s.toList ≤ 100) :
        Costs (.string s) (height + 1) 1 3300 :=
      leaf _ rfl ((charge_string_le bound).trans (by omega))
    refine ⟨addressed _, addressed _, leaf _ rfl (charge_hexText ‹_›), short _ (by decide),
      short _ (by cases kind <;> decide), ?_, listed, by simp⟩
    cases reverted
    · exact leaf _ rfl (by decide)
    · exact short _ (by decide)

/-! A wrapper enters a call that fails, and delegates to code that settles. -/

def wrapper : Address := Address.ofNat 70

def sender : Address := Address.ofNat 71

def library : Address := Address.ofNat 72

def hexText (input : List Byte) : String := "0x" ++ hexEncode input

def settling : CallTree := .frame .call module (hexText SampleCall.call) false []

def settlingJson : JsonValue := frameJson .call wrapper module SampleCall.call false []

def tree : CallTree := .frame .call wrapper (hexText []) false
  [.frame .call wrapper (hexText []) true [settling],
    .frame .delegatecall library (hexText []) false [settling]]

def trace : JsonValue := frameJson .call sender wrapper [] false
  [frameJson .call wrapper wrapper [] true [settlingJson],
    frameJson .delegatecall wrapper library [] false [settlingJson]]

def tx : JsonValue := .object
  [("hash", .string (hashHex (Hash.ofNat 5))), ("from", .string (addressHex sender)),
    ("to", .string (addressHex wrapper)), ("input", .string (hexText [])), ("value", .string "0x0")]

/-- The provider has this one answer. -/
def answers (value : JsonValue) (_ : String) (_ : JsonValue) : Except RpcError JsonValue :=
  .ok value

theorem settling_traces : Traces settling settlingJson := traces_frameJson .nil

theorem tree_traces : Traces tree trace :=
  traces_frameJson (.cons (traces_frameJson (.cons settling_traces .nil))
    (.cons (traces_frameJson (.cons settling_traces .nil)) .nil))

theorem settling_costs : Costs settlingJson 2 8 21000 := by
  have costs : Costs settlingJson (0 + 2) (8 + 0 * 0) (21000 + 0 * 0) :=
    costs_frameJson (by decide +kernel) (by simp) (by simp)
  simpa using costs

theorem wrapper_costs (kind : FrameKind) (sender recipient : Address) (reverted : Bool) :
    Costs (frameJson kind sender recipient [] reverted [settlingJson]) (2 + 2) (8 + 1 * 8)
      (21000 + 1 * 21000) :=
  costs_frameJson (by simp) (by simp) (List.forall_mem_singleton.mpr settling_costs)

theorem trace_limits : WithinLimits trace := by
  have costs : Costs trace (4 + 2) (8 + 2 * 16) (21000 + 2 * 42000) :=
    costs_frameJson (by simp) (by simp) (List.forall_mem_cons.mpr
      ⟨wrapper_costs .call wrapper wrapper true, List.forall_mem_singleton.mpr
        (wrapper_costs .delegatecall wrapper library false)⟩)
  exact
    { depth := fun node member => (costs.shallow 0 node member).trans (by omega)
      width := costs.narrow 0
      count := (costs.few 0).trans (by omega)
      texts := (costs.cheap 0).trans (by decide) }

theorem trace_bound : BoundTo tx .null trace where
  type := rfl
  sender := ⟨sender, address_addressHex _, address_addressHex _⟩
  recipient := ⟨wrapper, address_addressHex _, address_addressHex _⟩
  input := ⟨_, _, evidenceInput_hexText [], evidenceInput_hexText [], by simp [eqIgnoreAsciiCase]⟩
  value := by decide

end SampleTrace

open SampleTrace in
/-- The call below the delegating frame counts, the one below the failed frame does not. -/
theorem sampleTrace_accepted :
    ∃ candidate, tracedSettlement Lib.Keccak256.keccak256 SampleCall.policy candidate
      (answers trace) tx .null = .ok true := by
  obtain ⟨candidate, built, fields⟩ := SampleCall.of_isSampleResult SampleCall.built
  have matched := SampleCall.call_settles built fields
  have answered : answers trace TRACE_METHOD (traceParams tx) = .ok trace := rfl
  obtain ⟨accepted, ran, decided⟩ :=
    (traced_settlement_decides built answered tree_traces trace_bound).1 trace_limits
  have settles : tree.Settles Lib.Keccak256.keccak256 SampleCall.policy candidate := by
    refine ⟨_, settling, .call (.call .root (List.mem_cons_of_mem _ List.mem_cons_self))
      List.mem_cons_self, rfl, rfl, matched, rfl, ?_⟩
    simp [CallTree.reverted, tree]
  exact ⟨candidate, by rw [ran, decided.mpr settles]⟩

namespace SampleTrace

/-- The settling call below so many frames. -/
def deepTree : Nat → CallTree
  | 0 => settling
  | level + 1 => .frame .call wrapper (hexText []) false [deepTree level]

def deepTrace : Nat → JsonValue
  | 0 => settlingJson
  | level + 1 => frameJson .call sender wrapper [] false [deepTrace level]

theorem deepTree_traces (level : Nat) : Traces (deepTree level) (deepTrace level) := by
  induction level with
  | zero => exact settling_traces
  | succ level ih => exact traces_frameJson (.cons ih .nil)

/-- Each frame is two values deeper than the one above it. -/
theorem deepTrace_depth (level depth : Nat) :
    evidenceTree.Reaches (deepTrace level, depth) (settlingJson, depth + 2 * level) := by
  induction level generalizing depth with
  | zero => exact .refl
  | succ level ih =>
      have listed : (JsonValue.array [deepTrace level], depth + 1) ∈
          evidenceTree.children (deepTrace (level + 1), depth) := by
        simp [evidenceTree, deepTrace, frameJson, innerValues]
      have entered : (deepTrace level, depth + 2) ∈
          evidenceTree.children (.array [deepTrace level], depth + 1) := by
        simp [evidenceTree, innerValues]
      have rest := ih (depth + 2)
      rw [show depth + 2 + 2 * level = depth + 2 * (level + 1) by omega] at rest
      exact .head listed (.head entered rest)

theorem deepTree_at (level : Nat) : ∃ ancestors, (deepTree level).At ancestors settling ∧
    ∀ ancestor ∈ ancestors, ancestor.reverted = false := by
  induction level with
  | zero => exact ⟨[], .root, by simp⟩
  | succ level ih =>
      obtain ⟨ancestors, inTree, live⟩ := ih
      refine ⟨_, .enclosed List.mem_cons_self inTree, ?_⟩
      rw [List.forall_mem_append, List.forall_mem_singleton]
      exact ⟨live, rfl⟩

theorem deepTrace_bound (level : Nat) : BoundTo tx .null (deepTrace (level + 1)) where
  type := rfl
  sender := ⟨sender, address_addressHex _, address_addressHex _⟩
  recipient := ⟨wrapper, address_addressHex _, address_addressHex _⟩
  input := ⟨_, _, evidenceInput_hexText [], evidenceInput_hexText [], by simp [eqIgnoreAsciiCase]⟩
  value := by rfl

theorem deepTrace_beyond : ¬ WithinLimits (deepTrace 50) := by
  intro limits
  have shallow := limits.depth _ (evidenceTree.mem_nodes.mpr (deepTrace_depth 50 0))
  simp at shallow

end SampleTrace

open SampleTrace in
/-- Fifty calls deep, a settlement is beyond the limits, and the verifier does not say yes. -/
theorem deepTrace_refused :
    ¬ ∀ candidate, verifyCandidate Lib.Keccak256.keccak256 SampleCall.ecdsa SampleCall.policy "1"
        SampleCall.artifact = .ok candidate →
      ∀ tree trace, Traces tree trace → BoundTo tx .null trace →
        (tracedSettlement Lib.Keccak256.keccak256 SampleCall.policy candidate (answers trace) tx
            .null = .ok true ↔
          tree.Settles Lib.Keccak256.keccak256 SampleCall.policy candidate) := by
  intro claimed
  obtain ⟨candidate, built, fields⟩ := SampleCall.of_isSampleResult SampleCall.built
  have matched := SampleCall.call_settles built fields
  obtain ⟨ancestors, inTree, live⟩ := deepTree_at 50
  have accepted := (claimed candidate built (deepTree 50) (deepTrace 50) (deepTree_traces 50)
    (deepTrace_bound 49)).mpr ⟨ancestors, settling, inTree, rfl, rfl, matched, rfl, live⟩
  rw [tracedSettlement_bound rfl (deepTrace_bound 49)] at accepted
  obtain ⟨_, checked, -⟩ := (bind_ok_iff _ _ _).mp accepted
  exact deepTrace_beyond ((boundedTrace_ok_iff _).mp checked)

end Usd8Core.JobApi
