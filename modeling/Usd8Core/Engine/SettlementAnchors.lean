import Usd8Core.Engine.IncidentAuthorization
import Usd8Core.Engine.Rpc
import Usd8Core.Insurance.ClaimWindow
import Usd8Core.Lib.GreatestSearch

/-!
# The blocks a settlement is computed at

`block_at_or_before_timestamp` and `finalized_settlement_anchors`.  The end of the claim
window is the last finalized block that is not after the deadline, so the claims up to it
are the claims that the module accepted.
-/

set_option autoImplicit false

namespace Usd8Core.Engine

open Usd8Core.Lib.ByteWords
open Usd8Core.Lib.CheckedCall
open Usd8Core.Lib.GreatestSearch
open Usd8Core.Lib.Json
open Usd8Core.Lib.OracleCall
open Usd8Core.Lib.TraceRun
open Usd8Core.Chain
open Usd8Core.Insurance (OpensUntil ClaimCall claimCall_inTime)

/-! ## Blocks -/

inductive AnchorError where
  | rpc (failure : ScanFailure)
  | invalidQuantity (field : String)
  | invalidBlock (message : String)
  | windowNotFinalized (deadline head timestamp : Nat)
  | anchorNotFinalized (reference openBlock head : Nat)
  deriving DecidableEq

structure SettlementAnchors where
  reference : BlockAnchor
  openAnchor : BlockAnchor
  windowEnd : BlockAnchor
  finalizedHead : BlockAnchor

def quantity (value : JsonValue) (field : String) : Except AnchorError Nat := do
  let raw ← orRevert ((value.asString.bind strip0x).filter (¬ ·.isEmpty)) (.invalidQuantity field)
  orRevert (u64FromHex raw) (.invalidQuantity field)

/-- The hash that a text of 32 bytes spells; others than ASCII digits are refused. -/
def blockHash (value : JsonValue) : Except AnchorError Hash := do
  let bytes ← orRevert (((value.asString.bind strip0x).filter (·.length = 64)).bind decodeHexPairs)
    (.invalidBlock "missing or malformed hash")
  pure (Hash.ofNat (beValue bytes))

def checkNumber (expectedNumber : Option Nat) (number : Nat) : Except AnchorError Unit :=
  match expectedNumber with
  | some expected => revertIf (expected ≠ number)
      (.invalidBlock s!"requested block {expected} but provider returned {number}")
  | none => pure ()

def readBlock (tag : String) (expectedNumber : Option Nat) (value : JsonValue) :
    Except AnchorError BlockAnchor := do
  revertIf value.isNull (.invalidBlock s!"block {tag} not found")
  let number ← quantity (value.index "number") "block.number"
  checkNumber expectedNumber number
  let timestamp ← quantity (value.index "timestamp") "block.timestamp"
  let hash ← blockHash (value.index "hash")
  pure ⟨number, hash, timestamp⟩

def blockParams (tag : String) : JsonValue := .array [.string tag, .bool false]

section Anchors

variable {σ : Type} (client : RpcClient σ)

def block (tag : String) (expectedNumber : Option Nat) : Asking σ AnchorError BlockAnchor := do
  let value ← mapFailure .rpc (client.call "eth_getBlockByNumber" (blockParams tag))
  liftResult (readBlock tag expectedNumber value)

def blockByNumber (number : Nat) : Asking σ AnchorError BlockAnchor :=
  block client (hexQuantityText number) (some number)

def finalizedBlock : Asking σ AnchorError BlockAnchor := block client "finalized" none

/-- Whether a candidate of the search is not after the timestamp. -/
def atOrBefore (timestamp middle : Nat) : Asking σ AnchorError Bool := do
  let candidate ← blockByNumber client middle
  pure (candidate.timestamp ≤ timestamp)

def blockAtOrBeforeTimestamp (timestamp upperBound : Nat) : Asking σ AnchorError Nat := do
  let head ← blockByNumber client upperBound
  liftResult (revertIf (head.timestamp < timestamp)
    (.windowNotFinalized timestamp head.number head.timestamp))
  searchFrom (atOrBefore client timestamp) 1 upperBound

def finalizedSettlementAnchors (referenceBlock openBlock windowEndTimestamp : Nat) :
    Asking σ AnchorError SettlementAnchors := do
  let finalized ← finalizedBlock client
  liftResult (revertIf (finalized.timestamp < windowEndTimestamp)
    (.windowNotFinalized windowEndTimestamp finalized.number finalized.timestamp))
  liftResult (revertIf (referenceBlock > finalized.number ∨ openBlock > finalized.number)
    (.anchorNotFinalized referenceBlock openBlock finalized.number))
  let windowEndBlock ← blockAtOrBeforeTimestamp client windowEndTimestamp finalized.number
  let reference ← blockByNumber client referenceBlock
  let openAnchor ← blockByNumber client openBlock
  let windowEnd ← blockByNumber client windowEndBlock
  pure ⟨reference, openAnchor, windowEnd, finalized⟩

end Anchors

/-! ## What a provider knows of the chain -/

section Providers

variable {σ : Type} (client : RpcClient σ) (timestamps : Nat → Nat)

/-- Each block of an answer has the timestamp that the chain has at its number. -/
def TellsChain : Prop :=
  ∀ tag start value, (client.request "eth_getBlockByNumber" (blockParams tag) start).1 = .ok value →
    ∀ number timestamp, quantity (value.index "number") "block.number" = .ok number →
      quantity (value.index "timestamp") "block.timestamp" = .ok timestamp →
        timestamp = timestamps number

/-- The blocks up to `upper` are always answered with. -/
def ServesBlocks (upper : Nat) : Prop :=
  ∀ number ≤ upper, ∀ start, ∃ value anchor,
    (client.request "eth_getBlockByNumber" (blockParams (hexQuantityText number)) start).1 =
      .ok value ∧
    readBlock (hexQuantityText number) (some number) value = .ok anchor

variable {client timestamps}

theorem readBlock_ok {tag : String} {expectedNumber : Option Nat} {value : JsonValue}
    {anchor : BlockAnchor} (run : readBlock tag expectedNumber value = .ok anchor) :
    quantity (value.index "number") "block.number" = .ok anchor.number ∧
      quantity (value.index "timestamp") "block.timestamp" = .ok anchor.timestamp ∧
      ∀ expected ∈ expectedNumber, anchor.number = expected := by
  unfold readBlock at run
  obtain ⟨_, -, run⟩ := (bind_ok_iff _ _ _).mp run
  obtain ⟨number, isNumber, run⟩ := (bind_ok_iff _ _ _).mp run
  obtain ⟨_, isExpected, run⟩ := (bind_ok_iff _ _ _).mp run
  obtain ⟨timestamp, isTimestamp, run⟩ := (bind_ok_iff _ _ _).mp run
  obtain ⟨hash, -, run⟩ := (bind_ok_iff _ _ _).mp run
  cases (pure_ok_iff _ _).mp run
  refine ⟨isNumber, isTimestamp, fun expected same => ?_⟩
  rw [Option.mem_def.mp same] at isExpected
  exact (not_not.mp ((revertIf_ok_iff _ _ _).mp isExpected)).symm

/-- A block of the chain, and the one that was asked for. -/
def IsBlock (timestamps : Nat → Nat) (expectedNumber : Option Nat) (anchor : BlockAnchor) : Prop :=
  anchor.timestamp = timestamps anchor.number ∧ ∀ expected ∈ expectedNumber, anchor.number = expected

theorem ends_block (tells : TellsChain client timestamps) (tag : String)
    (expectedNumber : Option Nat) :
    Ends (IsBlock timestamps expectedNumber) (fun _ => True) (block client tag expectedNumber) := by
  intro start
  rw [block, runFrom_bind, mapFailure, runFrom_ask, RpcClient.call, runFrom_ask]
  cases answered : (client.request "eth_getBlockByNumber" (blockParams tag) start).1 with
  | error error => simp [answered, Except.mapError]
  | ok value =>
      simp only [answered, Except.mapError, runFrom_liftResult]
      cases read : readBlock tag expectedNumber value with
      | error error => trivial
      | ok anchor =>
          obtain ⟨isNumber, isTimestamp, isExpected⟩ := readBlock_ok read
          exact ⟨tells tag start value answered _ _ isNumber isTimestamp, isExpected⟩

theorem ends_served (tells : TellsChain client timestamps) {upper number : Nat}
    (serves : ServesBlocks client upper) (inside : number ≤ upper) :
    Ends (IsBlock timestamps (some number)) (fun _ => False) (blockByNumber client number) := by
  intro start
  obtain ⟨value, anchor, answered, read⟩ := serves number inside start
  obtain ⟨isNumber, isTimestamp, isExpected⟩ := readBlock_ok read
  have isBlock : IsBlock timestamps (some number) anchor :=
    ⟨tells _ start value answered _ _ isNumber isTimestamp, isExpected⟩
  rw [blockByNumber, block, runFrom_bind, mapFailure, runFrom_ask, RpcClient.call, runFrom_ask]
  simpa [answered, Except.mapError, read] using isBlock

/-! ## The search -/

section Search

variable {failed : AnchorError → Prop} {target upper : Nat}

/-- However the blocks are answered, a result is the last block up to the timestamp. -/
theorem ends_blockAtOrBefore (increasing : StrictMono timestamps) (first : timestamps 1 ≤ target)
    (blocks : ∀ number ≤ upper,
      Ends (IsBlock timestamps (some number)) failed (blockByNumber client number))
    (early : timestamps upper < target →
      failed (.windowNotFinalized target upper (timestamps upper))) :
    Ends (fun found => IsGreatest {number | number ≤ upper ∧ timestamps number ≤ target} found)
      failed (blockAtOrBeforeTimestamp client target upper) := by
  refine (blocks upper le_rfl).bind fun head isHead => ?_
  obtain ⟨isTimestamp, isNumber⟩ := isHead
  have number : head.number = upper := isNumber upper rfl
  rw [number] at isTimestamp
  have checked : Ends (fun _ => target ≤ timestamps upper) failed
      (liftResult (revertIf (head.timestamp < target)
        (.windowNotFinalized target head.number head.timestamp)) : Asking σ AnchorError Unit) := by
    rw [isTimestamp, number]
    apply ends_liftResult
    · intro _ passed
      exact Nat.le_of_not_lt ((revertIf_ok_iff _ _ _).mp passed)
    · intro error refused
      unfold revertIf at refused
      split at refused
      · cases refused
        exact early ‹_›
      · cases refused
  refine checked.bind fun _ late => ?_
  have nonempty : 1 ≤ upper := increasing.le_iff_le.mp (first.trans late)
  refine ends_searchFrom nonempty first ?_ ?_
  · intro lower higher ordered _ holds
    exact (increasing.monotone ordered).trans holds
  · intro middle _ below
    refine (blocks middle below).bind fun candidate isCandidate => ?_
    obtain ⟨isTimestamp, isNumber⟩ := isCandidate
    rw [isNumber middle rfl] at isTimestamp
    exact ends_pure (by rw [isTimestamp, decide_eq_true_eq])

/-- From a provider that answers, only a late timestamp is refused. -/
theorem blockAtOrBefore_error_iff (increasing : StrictMono timestamps)
    (first : timestamps 1 ≤ target) (tells : TellsChain client timestamps)
    (serves : ServesBlocks client upper) (start : σ) :
    (∃ error, (runFrom (blockAtOrBeforeTimestamp client target upper) start).1 = .error error) ↔
      timestamps upper < target := by
  have blocks (number : Nat) (inside : number ≤ upper) := ends_served tells serves inside
  constructor
  · rintro ⟨error, refused⟩
    by_contra late
    have ends := ends_blockAtOrBefore increasing first blocks (fun early => late early) start
    rw [refused] at ends
    exact ends
  · intro early
    have head := blocks upper le_rfl start
    rw [blockAtOrBeforeTimestamp, runFrom_bind]
    cases answered : runFrom (blockByNumber client upper) start with
    | mk outcome middle =>
        rw [answered] at head
        cases outcome with
        | error error => exact absurd head id
        | ok anchor =>
            have isUpper : anchor.number = upper := head.2 upper rfl
            have isEarly : anchor.timestamp < target := by rw [head.1, isUpper]; exact early
            refine ⟨.windowNotFinalized target anchor.number anchor.timestamp, ?_⟩
            dsimp only
            rw [runFrom_bind, runFrom_liftResult, revertIf, if_pos isEarly]

/-- The anchors of a settlement: its window ends at the last block up to the deadline. -/
theorem ends_finalizedSettlementAnchors (increasing : StrictMono timestamps)
    (first : timestamps 1 ≤ target) (tells : TellsChain client timestamps)
    (referenceBlock openBlock : Nat) :
    Ends (fun anchors => target ≤ timestamps anchors.finalizedHead.number ∧
        IsGreatest {number | number ≤ anchors.finalizedHead.number ∧ timestamps number ≤ target}
          anchors.windowEnd.number) (fun _ => True)
      (finalizedSettlementAnchors client referenceBlock openBlock target) := by
  refine (ends_block tells "finalized" none).bind fun finalized isBlock => ?_
  have checked : Ends (fun _ => target ≤ timestamps finalized.number) (fun _ => True)
      (liftResult (revertIf (finalized.timestamp < target)
        (.windowNotFinalized target finalized.number finalized.timestamp)) :
          Asking σ AnchorError Unit) := by
    apply ends_liftResult
    · intro _ passed
      rw [← isBlock.1]
      exact Nat.le_of_not_lt ((revertIf_ok_iff _ _ _).mp passed)
    · exact fun _ _ => trivial
  refine checked.bind fun _ late => ?_
  refine (ends_true).bind fun _ _ => ?_
  refine (ends_blockAtOrBefore increasing first (fun number _ => ends_block tells _ _)
    fun _ => trivial).bind fun windowEndBlock greatest => ?_
  refine (ends_true).bind fun reference _ => ?_
  refine (ends_true).bind fun openAnchor _ => ?_
  refine (ends_block tells _ (some windowEndBlock)).bind fun windowEnd isWindowEnd => ?_
  have number : windowEnd.number = windowEndBlock := isWindowEnd.2 windowEndBlock rfl
  exact ends_pure ⟨late, by rw [number]; exact greatest⟩

end Search

end Providers

/-! ## The claims of a settlement -/

/-- The search for the end of a claim window finds the last block up to the deadline, and is
refused exactly when the upper bound is before the deadline.  Up to that block are the claims
that were filed or cancelled in time, which is every one that the module accepted. -/
theorem window_end_block {σ : Type} (client : RpcClient σ) (timestamps : Nat → Nat)
    (increasing : StrictMono timestamps) (tells : TellsChain client timestamps) (deadline : Nat)
    (first : timestamps 1 ≤ deadline) :
    (∀ upper start found last,
      runFrom (blockAtOrBeforeTimestamp client deadline upper) start = (.ok found, last) →
        IsGreatest {number | number ≤ upper ∧ timestamps number ≤ deadline} found) ∧
    (∀ upper start, ServesBlocks client upper →
      ((∃ error, (runFrom (blockAtOrBeforeTimestamp client deadline upper) start).1 =
        .error error) ↔ timestamps upper < deadline)) ∧
    ∀ (platform : Platform) (steps : List (Transition World Tx)) (w : World) (m : Address)
      (id : Nat) (opening : Transition World Tx) (referenceBlock openBlock : Nat) (start last : σ)
      (anchors : SettlementAnchors),
      SystemRun platform steps w →
      (∀ t ∈ steps, t.before.block.timestamp = timestamps t.before.block.number) →
      opening ∈ steps → OpensUntil m id deadline opening →
      runFrom (finalizedSettlementAnchors client referenceBlock openBlock deadline) start =
        (.ok anchors, last) →
      (∀ t ∈ steps, ClaimCall m id t →
        t.before.now ≤ deadline ∧ t.before.block.number ≤ anchors.windowEnd.number) ∧
      ∀ t ∈ steps, deadline < t.before.now → anchors.windowEnd.number < t.before.block.number := by
  refine ⟨fun upper start found last run => ?_, fun upper start serves =>
    blockAtOrBefore_error_iff increasing first tells serves start, ?_⟩
  · exact (ends_blockAtOrBefore increasing first (fun number _ => ends_block tells _ _)
      fun _ => trivial).value run
  · intro platform steps w m id opening referenceBlock openBlock start last anchors run onChain
      opened opens anchored
    obtain ⟨finalized, greatest⟩ :=
      (ends_finalizedSettlementAnchors increasing first tells referenceBlock openBlock).value anchored
    constructor
    · intro t isStep claimCall
      have inTime := claimCall_inTime run opened opens isStep claimCall
      have atBlock : timestamps t.before.block.number ≤ deadline := onChain t isStep ▸ inTime
      -- A block after the finalized head would be after the deadline.
      have isFinal : t.before.block.number ≤ anchors.finalizedHead.number :=
        increasing.le_iff_le.mp (atBlock.trans finalized)
      exact ⟨inTime, greatest.2 ⟨isFinal, atBlock⟩⟩
    · intro t isStep late
      have atBlock : deadline < timestamps t.before.block.number := onChain t isStep ▸ late
      exact increasing.lt_iff_lt.mp (greatest.1.2.trans_lt atBlock)

/-! ## A window with one claim -/

namespace SmallWindow

open SmallDeployment (timelock admin usd8 insuredToken module oracle alice blockAt)

def timestamps (number : Nat) : Nat := 700000 + 300000 * number

def platform : Platform where
  keccak256 _ := Hash.zero
  ecdsaRecover _ _ := none
  chainId := 1
  registryAddress := Address.ofNat 60

def start : World :=
  World.genesis (blockAt 1 1000000) timelock admin (fun _ _ => 0) (fun _ _ _ => 0)

/-- An incident opened in the second block, with a claim that is taken back. -/
def actions : List Tx :=
  [.registry timelock (.setUsd8 usd8), .deployModule module,
    .registry timelock (.setDefiInsurance module),
    .module module timelock (.editInsuredToken insuredToken ⟨8000, oracle, Address.zero, []⟩),
    .erc20Mint insuredToken alice 500, .erc20Mint usd8 alice (10 * 10 ^ 18),
    .mine (blockAt 2 1300000),
    .module module admin (.openClaimIncident insuredToken 1),
    .module module alice (.fileClaim insuredToken 400 90 0 0 []), .module module alice .cancelClaim,
    .mine (blockAt 3 1600000)]

def opens (t : Transition World Tx) : Bool :=
  match t.before.modules module, t.after.modules module with
  | some mod, some after => mod.nextIncidentId = 1 ∧ 1 < after.nextIncidentId ∧
      1559200 = t.before.now + after.incidentPhaseWindow 1
  | _, _ => false

theorem opens_spec {t : Transition World Tx} (check : opens t = true) :
    OpensUntil module 1 1559200 t := by
  unfold opens at check
  split at check
  next mod after present presentAfter =>
    obtain ⟨isNext, grown, deadline⟩ := of_decide_eq_true check
    exact ⟨mod, after, present, presentAfter, isNext, grown, deadline⟩
  next => cases check

def cancels (t : Transition World Tx) : Bool :=
  match t.action, t.before.modules module with
  | .module m _ .cancelClaim, some mod => m = module ∧ mod.activeIncidentId t.before.now = 1
  | _, _ => false

theorem cancels_spec {t : Transition World Tx} (check : cancels t = true) :
    ClaimCall module 1 t := by
  unfold cancels at check
  split at check
  next m sender mod action present =>
    obtain ⟨rfl, active⟩ := of_decide_eq_true check
    exact .cancelled sender mod action present active
  next => cases check

theorem run : ∃ steps w, SystemRun platform steps w ∧
    (∀ t ∈ steps, t.before.block.timestamp = timestamps t.before.block.number) ∧
    (∃ opening ∈ steps, OpensUntil module 1 1559200 opening) ∧
    ∃ t ∈ steps, ClaimCall module 1 t := by
  have passed : endsIn (Chain.step platform) start actions (fun steps _ =>
      steps.all (fun t => t.before.block.timestamp = timestamps t.before.block.number) &&
        steps.any opens && steps.any cancels) = true := by
    decide +kernel
  obtain ⟨steps, w, ran, check⟩ := endsIn_isRun actions _ passed
  rw [Bool.and_eq_true, Bool.and_eq_true, List.all_eq_true, List.any_eq_true,
    List.any_eq_true] at check
  obtain ⟨⟨onChain, opening, opened, isOpening⟩, t, isStep, isCancel⟩ := check
  exact ⟨steps, w, ⟨_, _, _, _, _, ran⟩, fun t isStep => of_decide_eq_true (onChain t isStep),
    ⟨opening, opened, opens_spec isOpening⟩, t, isStep, cancels_spec isCancel⟩

/-! The provider numbers its blocks as it is asked, and has finalized the third. -/

def hashText : String := String.ofList ('0' :: 'x' :: List.replicate 64 '0')

def blockValue (number : Nat) : JsonValue :=
  .object [("number", .string (hexQuantityText number)),
    ("timestamp", .string (hexQuantityText (timestamps number))), ("hash", .string hashText)]

def numberOf (params : JsonValue) : Nat :=
  match params.asArray.bind List.head? with
  | some tag => if tag.asString = some "finalized" then 3
      else (((tag.asString.bind strip0x).bind hexNumber)).getD 0
  | none => 0

def client : RpcClient Unit where
  request _ params start := (.ok (blockValue (numberOf params)), start)
  transportAttempts start := (0, start)
  now start := (0, start)
  expires _ start := (false, start)

theorem strip0x_hexQuantityText (value : Nat) :
    strip0x (hexQuantityText value) = some (Nat.toDigits 16 value) := by
  simp [strip0x, hexQuantityText]

theorem u64FromHex_toDigits {value : Nat} (small : value < 2 ^ 64) :
    u64FromHex (Nat.toDigits 16 value) = some value := by
  have noSign : (Nat.toDigits 16 value).head? ≠ some '+' := by
    intro isSign
    obtain ⟨rest, isDigits⟩ := List.head?_eq_some_iff.mp isSign
    have spelled := hexNumber_toDigits value
    have notDigit : hexValue '+' = none := by decide
    simp [isDigits, hexNumber, notDigit] at spelled
  have kept : (some value).filter (fun read => decide (read < 2 ^ 64)) = some value := by
    rw [Option.filter_some, decide_eq_true small, if_pos rfl]
  rw [u64FromHex, if_neg noSign, hexNumber_toDigits, kept]
  simp [Nat.toDigits_ne_nil]

theorem quantity_text {value : Nat} (small : value < 2 ^ 64) (field : String) :
    quantity (.string (hexQuantityText value)) field = .ok value := by
  have digits : ((JsonValue.string (hexQuantityText value)).asString.bind strip0x).filter
      (¬ ·.isEmpty) = some (Nat.toDigits 16 value) := by
    rw [JsonValue.asString, Option.bind_some, strip0x_hexQuantityText, Option.filter_some, if_pos]
    simp [Nat.toDigits_ne_nil]
  rw [quantity, digits]
  dsimp only [orRevert, Bind.bind, Except.bind]
  rw [u64FromHex_toDigits small]

theorem quantity_text_eq {value read : Nat} {field : String}
    (run : quantity (.string (hexQuantityText value)) field = .ok read) : read = value := by
  simp only [quantity, JsonValue.asString, Option.bind_some, strip0x_hexQuantityText, bind_ok_iff,
    orRevert_ok_iff, Option.filter_eq_some_iff] at run
  obtain ⟨raw, ⟨isRaw, -⟩, parsed⟩ := run
  cases isRaw
  exact u64FromHex_of_hexNumber (hexNumber_toDigits value) parsed

theorem tells : TellsChain client timestamps := by
  intro tag start value answered number timestamp isNumber isTimestamp
  cases answered
  rw [quantity_text_eq isTimestamp, quantity_text_eq isNumber]

theorem blockHash_text : blockHash (.string hashText) = .ok Hash.zero := by
  decide +kernel

theorem readBlock_value {number : Nat} (small : number < 2 ^ 32) {tag : String}
    {expectedNumber : Option Nat} (expected : ∀ other ∈ expectedNumber, other = number) :
    readBlock tag expectedNumber (blockValue number) =
      .ok ⟨number, Hash.zero, timestamps number⟩ := by
  have isNumber : quantity ((blockValue number).index "number") "block.number" = .ok number :=
    quantity_text (by omega) _
  have isTimestamp : quantity ((blockValue number).index "timestamp") "block.timestamp" =
      .ok (timestamps number) :=
    quantity_text (by rw [timestamps]; omega) _
  have isHash : blockHash ((blockValue number).index "hash") = .ok Hash.zero := blockHash_text
  have isExpected : checkNumber expectedNumber number = .ok () := by
    cases expectedNumber with
    | none => rfl
    | some other => rw [checkNumber, expected other rfl, revertIf, if_neg (not_not.mpr rfl)]
  have present : revertIf ((blockValue number).isNull = true)
      (AnchorError.invalidBlock s!"block {tag} not found") = .ok () := rfl
  rw [readBlock, present, isNumber, isTimestamp, isHash]
  dsimp only [Bind.bind, Except.bind]
  rw [isExpected]
  rfl

theorem run_block {tag : String} {number : Nat} (small : number < 2 ^ 32)
    (isTag : numberOf (blockParams tag) = number) {expectedNumber : Option Nat}
    (expected : ∀ other ∈ expectedNumber, other = number) :
    runFrom (block client tag expectedNumber) () =
      (.ok ⟨number, Hash.zero, timestamps number⟩, ()) := by
  rw [block, runFrom_bind, mapFailure, runFrom_ask, RpcClient.call, runFrom_ask]
  simp only [client, isTag, Except.mapError, runFrom_liftResult, readBlock_value small expected]

theorem numberOf_text (number : Nat) :
    numberOf (blockParams (hexQuantityText number)) = number := by
  have other : hexQuantityText number ≠ "finalized" := by
    intro same
    have stripped := strip0x_hexQuantityText number
    have notHex : strip0x "finalized" = none := by decide +kernel
    rw [same, notHex] at stripped
    cases stripped
  simp [numberOf, blockParams, JsonValue.asArray, JsonValue.asString, other,
    strip0x_hexQuantityText, hexNumber_toDigits]

theorem run_blockByNumber {number : Nat} (small : number < 10) :
    runFrom (blockByNumber client number) () =
      (.ok ⟨number, Hash.zero, timestamps number⟩, ()) :=
  run_block (by omega) (numberOf_text number) fun other same => (Option.some.inj same).symm

theorem run_atOrBefore {number : Nat} (small : number < 10) :
    runFrom (atOrBefore client 1559200 number) () = (.ok (timestamps number ≤ 1559200), ()) := by
  rw [atOrBefore, runFrom_bind, run_blockByNumber small]
  rfl

theorem run_search : runFrom (blockAtOrBeforeTimestamp client 1559200 3) () = (.ok 2, ()) := by
  have done : searchFrom (atOrBefore client 1559200) 2 2 = pure 2 := by
    rw [searchFrom, dif_neg (Nat.lt_irrefl 2)]
  have last : runFrom (searchFrom (atOrBefore client 1559200) 2 3) () = (.ok 2, ()) := by
    rw [searchFrom, dif_pos (by decide), runFrom_bind, show upperMiddle 2 3 = 3 from rfl,
      run_atOrBefore (by decide)]
    exact congrArg (runFrom · ()) done
  rw [blockAtOrBeforeTimestamp, runFrom_bind, run_blockByNumber (by decide)]
  dsimp only
  rw [runFrom_bind, runFrom_liftResult, revertIf, if_neg (by decide)]
  dsimp only
  rw [searchFrom, dif_pos (by decide), runFrom_bind, show upperMiddle 1 3 = 2 from rfl,
    run_atOrBefore (by decide)]
  exact last

theorem run_anchors : runFrom (finalizedSettlementAnchors client 1 2 1559200) () =
    (.ok ⟨⟨1, Hash.zero, 1000000⟩, ⟨2, Hash.zero, 1300000⟩, ⟨2, Hash.zero, 1300000⟩,
      ⟨3, Hash.zero, 1600000⟩⟩, ()) := by
  have head : runFrom (finalizedBlock client) () = (.ok ⟨3, Hash.zero, timestamps 3⟩, ()) :=
    run_block (by decide) rfl fun other same => by cases same
  rw [finalizedSettlementAnchors, runFrom_bind, head]
  dsimp only
  rw [runFrom_bind, runFrom_liftResult, revertIf, if_neg (by decide)]
  dsimp only
  rw [runFrom_bind, runFrom_liftResult, revertIf, if_neg (by decide)]
  dsimp only
  rw [runFrom_bind, run_search]
  dsimp only
  rw [runFrom_bind, run_blockByNumber (by decide)]
  dsimp only
  rw [runFrom_bind, run_blockByNumber (by decide)]
  dsimp only
  rw [runFrom_bind, run_blockByNumber (by decide)]
  rfl

/-- The claim was taken back in time, in the last block of the window. -/
theorem cancelled_in_window : ∃ steps w, SystemRun platform steps w ∧
    (∃ t ∈ steps, ClaimCall module 1 t) ∧
    (∀ t ∈ steps, ClaimCall module 1 t → t.before.now ≤ 1559200 ∧ t.before.block.number ≤ 2) ∧
    IsGreatest {number | number ≤ 3 ∧ timestamps number ≤ 1559200} 2 := by
  obtain ⟨steps, w, ran, onChain, ⟨opening, opened, opens⟩, hasClaim⟩ := run
  have increasing : StrictMono timestamps := fun lower upper below => by
    simp only [timestamps]
    omega
  have window := window_end_block client timestamps increasing tells 1559200 (by decide)
  exact ⟨steps, w, ran, hasClaim, (window.2.2 platform steps w module 1 opening 1 2 () () _ ran
    onChain opened opens run_anchors).1, window.1 3 () 2 () run_search⟩

end SmallWindow

end Usd8Core.Engine
