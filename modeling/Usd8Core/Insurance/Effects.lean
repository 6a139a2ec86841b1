import Usd8Core.Chain.System
import Mathlib.Logic.Relation

/-!
# The effects of a module call

Whatever a module call does to the world is a sequence of six effects: a write
to its own storage, a log of its own, a token transfer out of the module or the
sender, a booster movement, a call to a pool, and a score recorded in the
Registry.  What no effect touches, no call touches.
-/

set_option autoImplicit false

namespace Usd8Core.Insurance

open Usd8Core.Lib.ByteWords
open Usd8Core.Lib.CheckedCall
open Usd8Core.Lib.FiniteLedger
open Usd8Core.Chain

/-! ## Reading the world back -/

section Worlds

variable {w next : World} {m p : Address}

theorem getModule_ok_iff (mod : DefiInsurance) :
    w.getModule m = .ok mod ↔ w.modules m = some mod := orRevert_ok_iff ..

theorem getPool_ok_iff (pool : SingleAssetCoverPool) :
    w.getPool p = .ok pool ↔ w.pools p = some pool := orRevert_ok_iff ..

@[simp] theorem setModule_self (mod : DefiInsurance) :
    (w.setModule m mod).modules m = some mod := Function.update_self ..

@[simp] theorem setModule_other {other : Address} (mod : DefiInsurance) (differ : other ≠ m) :
    (w.setModule m mod).modules other = w.modules other := Function.update_of_ne differ ..

@[simp] theorem setModule_setModule (first second : DefiInsurance) :
    (w.setModule m first).setModule m second = w.setModule m second := by
  unfold World.setModule
  rw [Function.update_idem]

theorem transferErc20_ok_iff (token sender recipient : Address) (amount : Nat) :
    w.transferErc20 token sender recipient amount = .ok next ↔
      ∃ erc20, erc20Transfer w.erc20 token sender recipient amount = .ok erc20 ∧
        next = { w with erc20 := erc20 } := by
  simp only [World.transferErc20, bind_ok_iff, pure_ok_iff, eq_comm (a := next)]

/-- A log touches nothing but the log. -/
theorem emitAll_eq (emitter : Address) (events : List Event) :
    w.emitAll emitter events = { w with logs := (w.emitAll emitter events).logs } := by
  unfold World.emitAll
  induction events generalizing w with
  | nil => rfl
  | cons event rest ih => exact ih

theorem emitAll_logs (emitter : Address) (events : List Event) :
    w.logs <+: (w.emitAll emitter events).logs := by
  unfold World.emitAll
  induction events generalizing w with
  | nil => exact List.prefix_rfl
  | cons event rest ih =>
      have grown : w.logs <+: (w.emit emitter event).logs := List.prefix_append _ _
      exact grown.trans (ih (w := w.emit emitter event))

/-- The events one contract has emitted, oldest first. -/
def eventsOf (w : World) (emitter : Address) : List Event :=
  (w.logs.filter fun log => log.emitter = emitter).map Log.event

theorem eventsOf_emit (emitter account : Address) (event : Event) :
    eventsOf (w.emit emitter event) account =
      eventsOf w account ++ if emitter = account then [event] else [] := by
  unfold eventsOf World.emit
  rw [List.filter_append, List.map_append]
  congr 1
  split <;> simp_all

theorem eventsOf_emitAll (emitter account : Address) (events : List Event) :
    eventsOf (w.emitAll emitter events) account =
      eventsOf w account ++ if emitter = account then events else [] := by
  unfold World.emitAll
  induction events generalizing w with
  | nil => simp
  | cons event rest ih =>
      rw [List.foldl_cons, ih, eventsOf_emit]
      split <;> simp

theorem callPool_ok (sender : Address) (call : PoolCall)
    (run : w.callPool p sender call = .ok next) :
    ∃ pool tx, w.pools p = some pool ∧
      PoolTx.exec (w.poolEnv p sender) ⟨pool, w.erc20, []⟩ call = .ok tx ∧
      next = ({ w with
        pools := Function.update w.pools p (some tx.pool)
        erc20 := tx.erc20 }.emitAll p tx.events) := by
  unfold World.callPool at run
  obtain ⟨pool, poolRun, run⟩ := (bind_ok_iff _ _ _).mp run
  obtain ⟨tx, executed, result⟩ := (bind_ok_iff _ _ _).mp run
  exact ⟨pool, tx, (getPool_ok_iff pool).mp poolRun, executed,
    ((pure_ok_iff _ _).mp result).symm⟩

/-- A pool call leaves everything but the pool, the tokens and the log. -/
theorem callPool_frame (sender : Address) (call : PoolCall)
    (run : w.callPool p sender call = .ok next) :
    next.block = w.block ∧ next.registry = w.registry ∧ next.modules = w.modules ∧
      next.erc1155 = w.erc1155 ∧ ∀ other, other ≠ p → next.pools other = w.pools other := by
  obtain ⟨pool, tx, -, -, nextEq⟩ := callPool_ok sender call run
  rw [emitAll_eq] at nextEq
  subst nextEq
  exact ⟨rfl, rfl, rfl, rfl, fun other differ => Function.update_of_ne differ ..⟩

end Worlds

/-! ## Effects -/

/-- The events a module declares. -/
def ModuleEvent : Event → Prop
  | .incidentOpened _ _ _ _ => True
  | .incidentSettled _ _ _ => True
  | .incidentCorrected _ _ => True
  | .claimRegistered _ _ _ _ _ _ => True
  | .claimFinalized _ _ => True
  | .protocolFeePaid _ _ _ _ => True
  | .claimCancelled _ _ => True
  | .claimDeclined _ _ _ => True
  | .scoreSpent _ _ _ => True
  | .insuredTokenRemoved _ => True
  | .tokenSwept _ _ _ => True
  | _ => False

/-- The two pool functions a module calls. -/
def FromModule : PoolCall → Prop
  | .settleMaturedExitEpochs _ => True
  | .payClaim _ _ => True
  | _ => False

inductive ModuleEffect (platform : Platform) (m sender : Address) : World → World → Prop
  | stored (w : World) (before after : DefiInsurance) (deployed : w.modules m = some before) :
      ModuleEffect platform m sender w (w.setModule m after)
  | emitted (w : World) (event : Event) (own : ModuleEvent event) :
      ModuleEffect platform m sender w (w.emit m event)
  | moved (w : World) (token payer recipient : Address) (amount : Nat) (erc20 : Erc20)
      (payerKnown : payer = m ∨ payer = sender)
      (run : erc20Transfer w.erc20 token payer recipient amount = .ok erc20) :
      ModuleEffect platform m sender w { w with erc20 := erc20 }
  | boosted (w : World) (erc1155 : Erc1155)
      (others : ∀ collection id holder, holder ≠ m → holder ≠ sender →
        w.erc1155 collection id holder ≤ erc1155 collection id holder) :
      ModuleEffect platform m sender w { w with erc1155 := erc1155 }
  | called (w next : World) (p : Address) (call : PoolCall) (allowed : FromModule call)
      (run : w.callPool p m call = .ok next) : ModuleEffect platform m sender w next
  | scored (w : World) (account : Address) (amount : Nat) (registry : Registry) (event : Event)
      (run : w.registry.recordScoreSpent m account amount = .ok (registry, event)) :
      ModuleEffect platform m sender w
        ({ w with registry := registry }.emit platform.registryAddress event)

abbrev ModuleEffects (platform : Platform) (m sender : Address) : World → World → Prop :=
  Relation.ReflTransGen (ModuleEffect platform m sender)

/-- What every module call leaves as it was. -/
structure ModuleFrame (m : Address) (w next : World) : Prop where
  block : next.block = w.block
  registry : next.registry = { w.registry with scoreSpent := next.registry.scoreSpent }
  others : ∀ other, other ≠ m → next.modules other = w.modules other
  deployed : (next.modules m).isSome = (w.modules m).isSome
  pools : ∀ p, (next.pools p).isSome = (w.pools p).isSome

theorem recordScoreSpent_ok (registry next : Registry) (sender account : Address) (amount : Nat)
    (event : Event) (run : registry.recordScoreSpent sender account amount = .ok (next, event)) :
    sender = registry.defiInsurance ∧ event = .scoreSpentRecorded account amount
      (registry.scoreSpent account + amount) ∧
      next = { registry with scoreSpent := next.scoreSpent } := by
  unfold Registry.recordScoreSpent at run
  obtain ⟨_, registered, run⟩ := (bind_ok_iff _ _ _).mp run
  obtain ⟨total, totalRun, result⟩ := (bind_ok_iff _ _ _).mp run
  obtain ⟨-, totalEq⟩ := (checkedAdd_ok_iff _ _ _ _).mp totalRun
  cases (pure_ok_iff _ _).mp result
  have sameSender := (revertIf_ok_iff _ _ _).mp registered
  exact ⟨not_not.mp sameSender, by rw [totalEq], rfl⟩

section Frame

variable {platform : Platform} {m sender : Address} {w next : World}

theorem ModuleFrame.refl (m : Address) (w : World) : ModuleFrame m w w :=
  ⟨rfl, rfl, fun _ _ => rfl, rfl, fun _ => rfl⟩

theorem ModuleFrame.trans {middle : World} (first : ModuleFrame m w middle)
    (second : ModuleFrame m middle next) : ModuleFrame m w next := by
  refine ⟨second.block.trans first.block, ?_, ?_, second.deployed.trans first.deployed,
    fun p => (second.pools p).trans (first.pools p)⟩
  · rw [second.registry, first.registry]
  · intro other differ
    rw [second.others other differ, first.others other differ]

theorem ModuleEffect.frame (effect : ModuleEffect platform m sender w next) :
    ModuleFrame m w next := by
  cases effect with
  | stored before after deployed =>
      refine ⟨rfl, rfl, fun other differ => setModule_other after differ, ?_, fun _ => rfl⟩
      rw [setModule_self, deployed]
      rfl
  | emitted event own => exact ⟨rfl, rfl, fun _ _ => rfl, rfl, fun _ => rfl⟩
  | moved token payer recipient amount erc20 payerKnown run =>
      exact ⟨rfl, rfl, fun _ _ => rfl, rfl, fun _ => rfl⟩
  | boosted erc1155 others => exact ⟨rfl, rfl, fun _ _ => rfl, rfl, fun _ => rfl⟩
  | called _ p call allowed run =>
      obtain ⟨sameBlock, sameRegistry, sameModules, -, otherPools⟩ := callPool_frame m call run
      obtain ⟨pool, tx, present, -, nextEq⟩ := callPool_ok m call run
      refine ⟨sameBlock, ?_, fun other _ => by rw [sameModules], by rw [sameModules], ?_⟩
      · rw [sameRegistry]
      · intro other
        by_cases same : other = p
        · subst same
          rw [emitAll_eq] at nextEq
          rw [nextEq, present]
          simp
        · rw [otherPools other same]
  | scored account amount registry event run =>
      obtain ⟨-, -, registryEq⟩ := recordScoreSpent_ok w.registry registry m account amount event run
      exact ⟨rfl, registryEq, fun _ _ => rfl, rfl, fun _ => rfl⟩

theorem effects_frame (effects : ModuleEffects platform m sender w next) :
    ModuleFrame m w next := by
  induction effects with
  | refl => exact ModuleFrame.refl m w
  | tail _ last ih => exact ih.trans last.frame

/-- Logs are only added. -/
theorem ModuleEffect.logs (effect : ModuleEffect platform m sender w next) :
    w.logs <+: next.logs := by
  cases effect with
  | stored before after deployed => exact List.prefix_rfl
  | emitted event own => exact List.prefix_append _ _
  | moved token payer recipient amount erc20 payerKnown run => exact List.prefix_rfl
  | boosted erc1155 others => exact List.prefix_rfl
  | called _ p call allowed run =>
      obtain ⟨pool, tx, -, -, nextEq⟩ := callPool_ok m call run
      rw [nextEq]
      exact emitAll_logs (w := { w with
        pools := Function.update w.pools p (some tx.pool), erc20 := tx.erc20 }) p tx.events
  | scored account amount registry event run => exact List.prefix_append _ _

theorem effects_logs (effects : ModuleEffects platform m sender w next) :
    w.logs <+: next.logs := by
  induction effects with
  | refl => exact List.prefix_rfl
  | tail _ last ih => exact ih.trans last.logs

end Frame

/-! ## Every call is a sequence of effects -/

section Calls

variable {platform : Platform} {m sender : Address} {w next : World}

theorem setModule_effects {before : DefiInsurance} (after : DefiInsurance)
    (deployed : w.modules m = some before) :
    ModuleEffects platform m sender w (w.setModule m after) :=
  .single (.stored w before after deployed)

theorem emit_effects (event : Event) (own : ModuleEvent event) :
    ModuleEffects platform m sender w (w.emit m event) :=
  .single (.emitted w event own)

theorem transferErc20_effects (token payer recipient : Address) (amount : Nat)
    (payerKnown : payer = m ∨ payer = sender)
    (run : w.transferErc20 token payer recipient amount = .ok next) :
    ModuleEffects platform m sender w next := by
  obtain ⟨erc20, transferred, rfl⟩ := (transferErc20_ok_iff _ _ _ _).mp run
  exact .single (.moved w token payer recipient amount erc20 payerKnown transferred)

theorem callPool_effects (p : Address) (call : PoolCall) (allowed : FromModule call)
    (run : w.callPool p m call = .ok next) : ModuleEffects platform m sender w next :=
  .single (.called w next p call allowed run)

/-- The module is still there after any effects. -/
theorem effects_deployed (effects : ModuleEffects platform m sender w next)
    {before : DefiInsurance} (deployed : w.modules m = some before) :
    ∃ after, next.modules m = some after := by
  have same := (effects_frame effects).deployed
  rw [deployed] at same
  exact Option.isSome_iff_exists.mp same

theorem setClaimBondAmount_effects (caller : Address) (amount : Nat)
    (run : w.setClaimBondAmount m caller amount = .ok next) :
    ModuleEffects platform m sender w next := by
  unfold World.setClaimBondAmount at run
  obtain ⟨_, -, run⟩ := (bind_ok_iff _ _ _).mp run
  obtain ⟨mod, present, result⟩ := (bind_ok_iff _ _ _).mp run
  cases (pure_ok_iff _ _).mp result
  exact setModule_effects _ ((getModule_ok_iff mod).mp present)

theorem setSettlementParams_effects (caller : Address) (params : SettlementParams)
    (run : w.setSettlementParams m caller params = .ok next) :
    ModuleEffects platform m sender w next := by
  unfold World.setSettlementParams at run
  obtain ⟨_, -, run⟩ := (bind_ok_iff _ _ _).mp run
  obtain ⟨mod, present, run⟩ := (bind_ok_iff _ _ _).mp run
  obtain ⟨_, -, run⟩ := (bind_ok_iff _ _ _).mp run
  obtain ⟨_, -, result⟩ := (bind_ok_iff _ _ _).mp run
  cases (pure_ok_iff _ _).mp result
  exact setModule_effects _ ((getModule_ok_iff mod).mp present)

theorem setTeeSigner_effects (caller signer : Address) (authorized : Bool)
    (run : w.setTeeSigner m caller signer authorized = .ok next) :
    ModuleEffects platform m sender w next := by
  unfold World.setTeeSigner at run
  obtain ⟨_, -, run⟩ := (bind_ok_iff _ _ _).mp run
  obtain ⟨mod, present, run⟩ := (bind_ok_iff _ _ _).mp run
  obtain ⟨_, -, run⟩ := (bind_ok_iff _ _ _).mp run
  obtain ⟨_, -, result⟩ := (bind_ok_iff _ _ _).mp run
  cases (pure_ok_iff _ _).mp result
  exact setModule_effects _ ((getModule_ok_iff mod).mp present)

theorem delist_effects {before : DefiInsurance} (mod : DefiInsurance) (token : Address)
    (deployed : w.modules m = some before) :
    ModuleEffects platform m sender w (w.delist m mod token) := by
  unfold World.delist
  split
  · exact setModule_effects _ deployed
  · exact (setModule_effects _ deployed).trans (emit_effects _ trivial)

theorem editInsuredToken_effects (caller token : Address) (recipe : InsuredToken)
    (run : w.editInsuredToken m caller token recipe = .ok next) :
    ModuleEffects platform m sender w next := by
  unfold World.editInsuredToken at run
  obtain ⟨_, -, run⟩ := (bind_ok_iff _ _ _).mp run
  obtain ⟨mod, present, run⟩ := (bind_ok_iff _ _ _).mp run
  obtain ⟨_, -, run⟩ := (bind_ok_iff _ _ _).mp run
  have deployed := (getModule_ok_iff mod).mp present
  rcases (ite_ok_iff _ _ _ _).mp run with ⟨-, run⟩ | ⟨-, run⟩
  · obtain ⟨_, -, run⟩ := (bind_ok_iff _ _ _).mp run
    obtain ⟨_, -, result⟩ := (bind_ok_iff _ _ _).mp run
    cases (pure_ok_iff _ _).mp result
    exact delist_effects mod token deployed
  · obtain ⟨_, -, run⟩ := (bind_ok_iff _ _ _).mp run
    obtain ⟨_, -, run⟩ := (bind_ok_iff _ _ _).mp run
    obtain ⟨_, -, result⟩ := (bind_ok_iff _ _ _).mp run
    cases (pure_ok_iff _ _).mp result
    exact setModule_effects _ deployed

theorem sweepModuleToken_effects (caller token recipient : Address)
    (run : w.sweepModuleToken m caller token recipient = .ok next) :
    ModuleEffects platform m sender w next := by
  unfold World.sweepModuleToken at run
  obtain ⟨_, -, run⟩ := (bind_ok_iff _ _ _).mp run
  obtain ⟨mod, -, run⟩ := (bind_ok_iff _ _ _).mp run
  obtain ⟨_, -, run⟩ := (bind_ok_iff _ _ _).mp run
  obtain ⟨_, -, run⟩ := (bind_ok_iff _ _ _).mp run
  obtain ⟨amount, -, run⟩ := (bind_ok_iff _ _ _).mp run
  obtain ⟨_, -, run⟩ := (bind_ok_iff _ _ _).mp run
  obtain ⟨moved, movedRun, result⟩ := (bind_ok_iff _ _ _).mp run
  cases (pure_ok_iff _ _).mp result
  exact (transferErc20_effects token m recipient amount (Or.inl rfl) movedRun).trans
    (emit_effects _ trivial)

theorem settleListedPools_effects (run : w.settleListedPools m = .ok next) :
    ModuleEffects platform m sender w next := by
  apply foldlM_relates _ (ModuleEffects platform m sender) (fun _ => .refl)
    (fun _ _ _ => Relation.ReflTransGen.trans) _ _ w next run
  intro state p after ran
  exact callPool_effects p (.settleMaturedExitEpochs _) trivial ran

theorem openIncident_effects (token : Address) (referenceBlock : Nat) (teePcrHash : Hash)
    (run : w.openIncident m token referenceBlock teePcrHash = .ok next) :
    ModuleEffects platform m sender w next := by
  unfold World.openIncident at run
  obtain ⟨_, -, run⟩ := (bind_ok_iff _ _ _).mp run
  obtain ⟨mod, -, run⟩ := (bind_ok_iff _ _ _).mp run
  obtain ⟨_, -, run⟩ := (bind_ok_iff _ _ _).mp run
  obtain ⟨_, -, run⟩ := (bind_ok_iff _ _ _).mp run
  obtain ⟨_, -, run⟩ := (bind_ok_iff _ _ _).mp run
  obtain ⟨_, -, run⟩ := (bind_ok_iff _ _ _).mp run
  obtain ⟨settled, settledRun, run⟩ := (bind_ok_iff _ _ _).mp run
  obtain ⟨settledMod, present, run⟩ := (bind_ok_iff _ _ _).mp run
  obtain ⟨_, -, run⟩ := (bind_ok_iff _ _ _).mp run
  obtain ⟨claimDeadline, -, result⟩ := (bind_ok_iff _ _ _).mp run
  cases (pure_ok_iff _ _).mp result
  exact ((settleListedPools_effects settledRun).trans
    (setModule_effects _ ((getModule_ok_iff settledMod).mp present))).trans (emit_effects _ trivial)

theorem claimIncident_effects (caller token : Address) (referenceBlock : Nat)
    (signature : List Byte) (incidentId : Nat)
    (run : w.claimIncident platform m caller token referenceBlock signature =
      .ok (next, incidentId)) :
    ModuleEffects platform m sender w next := by
  unfold World.claimIncident at run
  obtain ⟨mod, -, run⟩ := (bind_ok_iff _ _ _).mp run
  rcases (ite_ok_iff _ _ _ _).mp run with ⟨-, run⟩ | ⟨-, run⟩
  · obtain ⟨_, -, run⟩ := (bind_ok_iff _ _ _).mp run
    obtain ⟨recovered, -, run⟩ := (bind_ok_iff _ _ _).mp run
    obtain ⟨_, -, run⟩ := (bind_ok_iff _ _ _).mp run
    obtain ⟨opened, openedRun, result⟩ := (bind_ok_iff _ _ _).mp run
    cases (pure_ok_iff _ _).mp result
    exact openIncident_effects token referenceBlock _ openedRun
  · obtain ⟨_, -, result⟩ := (bind_ok_iff _ _ _).mp run
    cases (pure_ok_iff _ _).mp result
    exact .refl

theorem pullToken_effects (token : Address) (amount received : Nat)
    (run : w.pullToken m sender token amount = .ok (next, received)) :
    ModuleEffects platform m sender w next := by
  unfold World.pullToken at run
  obtain ⟨moved, movedRun, run⟩ := (bind_ok_iff _ _ _).mp run
  obtain ⟨delta, -, result⟩ := (bind_ok_iff _ _ _).mp run
  cases (pure_ok_iff _ _).mp result
  exact transferErc20_effects token sender m amount (Or.inr rfl) movedRun

theorem pullBoosters_effects (boosterAmount : Nat)
    (run : w.pullBoosters m sender boosterAmount = .ok next) :
    ModuleEffects platform m sender w next := by
  unfold World.pullBoosters at run
  rcases (ite_ok_iff _ _ _ _).mp run with ⟨-, run⟩ | ⟨-, result⟩
  · obtain ⟨erc1155, transferred, result⟩ := (bind_ok_iff _ _ _).mp run
    cases (pure_ok_iff _ _).mp result
    apply Relation.ReflTransGen.single
    apply ModuleEffect.boosted
    intro collection id holder _ notSender
    exact erc1155Transfer_le _ _ _ _ _ _ _ transferred collection id holder notSender
  · cases (pure_ok_iff _ _).mp result
    exact .refl

theorem registerClaim_effects (token : Address)
    (insuredTokenAmount scoreToSpend boosterAmount incidentId : Nat)
    (run : w.registerClaim platform m sender token insuredTokenAmount scoreToSpend boosterAmount
      incidentId = .ok next) :
    ModuleEffects platform m sender w next := by
  unfold World.registerClaim at run
  obtain ⟨mod, present, run⟩ := (bind_ok_iff _ _ _).mp run
  obtain ⟨⟨pulled, received⟩, pulledRun, run⟩ := (bind_ok_iff _ _ _).mp run
  obtain ⟨escrow, -, run⟩ := (bind_ok_iff _ _ _).mp run
  obtain ⟨_, -, run⟩ := (bind_ok_iff _ _ _).mp run
  obtain ⟨_, -, run⟩ := (bind_ok_iff _ _ _).mp run
  obtain ⟨bonded, bondedRun, run⟩ := (bind_ok_iff _ _ _).mp run
  obtain ⟨_, -, run⟩ := (bind_ok_iff _ _ _).mp run
  obtain ⟨_, -, run⟩ := (bind_ok_iff _ _ _).mp run
  obtain ⟨_, -, run⟩ := (bind_ok_iff _ _ _).mp run
  obtain ⟨_, -, run⟩ := (bind_ok_iff _ _ _).mp run
  obtain ⟨boosted, boostedRun, run⟩ := (bind_ok_iff _ _ _).mp run
  obtain ⟨_, -, result⟩ := (bind_ok_iff _ _ _).mp run
  cases (pure_ok_iff _ _).mp result
  have moves : ModuleEffects platform m sender w boosted :=
    ((pullToken_effects token insuredTokenAmount received pulledRun).trans
      (transferErc20_effects _ sender m _ (Or.inr rfl) bondedRun)).trans
      (pullBoosters_effects boosterAmount boostedRun)
  obtain ⟨after, deployed⟩ := effects_deployed moves ((getModule_ok_iff mod).mp present)
  exact (moves.trans (setModule_effects _ deployed)).trans (emit_effects _ trivial)

theorem fileClaim_effects (token : Address)
    (insuredTokenAmount scoreToSpend boosterAmount referenceBlock : Nat) (signature : List Byte)
    (run : w.fileClaim platform m sender token insuredTokenAmount scoreToSpend boosterAmount
      referenceBlock signature = .ok next) :
    ModuleEffects platform m sender w next := by
  unfold World.fileClaim at run
  obtain ⟨_, -, run⟩ := (bind_ok_iff _ _ _).mp run
  obtain ⟨_, -, run⟩ := (bind_ok_iff _ _ _).mp run
  obtain ⟨_, -, run⟩ := (bind_ok_iff _ _ _).mp run
  obtain ⟨⟨joined, incidentId⟩, joinedRun, run⟩ := (bind_ok_iff _ _ _).mp run
  exact (claimIncident_effects sender token referenceBlock signature incidentId joinedRun).trans
    (registerClaim_effects token insuredTokenAmount scoreToSpend boosterAmount incidentId run)

theorem resolveBoosters_effects (claim : Claim) (recipient : Address) (burnAmount : Nat)
    (run : w.resolveBoosters m claim recipient burnAmount = .ok next) :
    ModuleEffects platform m sender w next := by
  unfold World.resolveBoosters at run
  rcases (ite_ok_iff _ _ _ _).mp run with ⟨-, run⟩ | ⟨-, result⟩
  · obtain ⟨burnt, burntRun, run⟩ := (bind_ok_iff _ _ _).mp run
    obtain ⟨returned, returnedRun, result⟩ := (bind_ok_iff _ _ _).mp run
    cases (pure_ok_iff _ _).mp result
    apply Relation.ReflTransGen.single
    apply ModuleEffect.boosted
    intro collection id holder notModule _
    have burntLe : w.erc1155 collection id holder ≤ burnt collection id holder := by
      rcases (ite_ok_iff _ _ _ _).mp burntRun with ⟨-, ran⟩ | ⟨-, same⟩
      · exact erc1155Burn_le _ _ _ _ _ _ ran collection id holder notModule
      · rw [(pure_ok_iff _ _).mp same]
    have returnedLe : burnt collection id holder ≤ returned collection id holder := by
      rcases (ite_ok_iff _ _ _ _).mp returnedRun with ⟨-, ran⟩ | ⟨-, same⟩
      · exact erc1155Transfer_le _ _ _ _ _ _ _ ran collection id holder notModule
      · rw [(pure_ok_iff _ _).mp same]
    exact burntLe.trans returnedLe
  · cases (pure_ok_iff _ _).mp result
    exact .refl

theorem resolveClaimBond_effects (claim : Claim) (recipient : Address)
    (run : w.resolveClaimBond m claim recipient = .ok next) :
    ModuleEffects platform m sender w next := by
  unfold World.resolveClaimBond at run
  obtain ⟨moved, movedRun, run⟩ := (bind_ok_iff _ _ _).mp run
  obtain ⟨mod, present, run⟩ := (bind_ok_iff _ _ _).mp run
  obtain ⟨bonds, -, result⟩ := (bind_ok_iff _ _ _).mp run
  cases (pure_ok_iff _ _).mp result
  exact (transferErc20_effects _ m recipient _ (Or.inl rfl) movedRun).trans
    (setModule_effects _ ((getModule_ok_iff mod).mp present))

theorem refundClaim_effects (claim : Claim) (token recipient : Address)
    (run : w.refundClaim m claim token recipient = .ok next) :
    ModuleEffects platform m sender w next := by
  unfold World.refundClaim at run
  obtain ⟨boosted, boostedRun, run⟩ := (bind_ok_iff _ _ _).mp run
  obtain ⟨bonded, bondedRun, run⟩ := (bind_ok_iff _ _ _).mp run
  obtain ⟨moved, movedRun, run⟩ := (bind_ok_iff _ _ _).mp run
  obtain ⟨mod, present, run⟩ := (bind_ok_iff _ _ _).mp run
  obtain ⟨escrowed, -, result⟩ := (bind_ok_iff _ _ _).mp run
  cases (pure_ok_iff _ _).mp result
  exact (((resolveBoosters_effects claim recipient 0 boostedRun).trans
    (resolveClaimBond_effects claim recipient bondedRun)).trans
    (transferErc20_effects token m recipient _ (Or.inl rfl) movedRun)).trans
    (setModule_effects _ ((getModule_ok_iff mod).mp present))

theorem cancelClaim_effects (run : w.cancelClaim platform m sender = .ok next) :
    ModuleEffects platform m sender w next := by
  unfold World.cancelClaim at run
  obtain ⟨mod, present, run⟩ := (bind_ok_iff _ _ _).mp run
  obtain ⟨_, -, run⟩ := (bind_ok_iff _ _ _).mp run
  obtain ⟨_, -, run⟩ := (bind_ok_iff _ _ _).mp run
  obtain ⟨_, -, run⟩ := (bind_ok_iff _ _ _).mp run
  obtain ⟨_, -, run⟩ := (bind_ok_iff _ _ _).mp run
  obtain ⟨unresolved, -, run⟩ := (bind_ok_iff _ _ _).mp run
  obtain ⟨refunded, refundedRun, result⟩ := (bind_ok_iff _ _ _).mp run
  cases (pure_ok_iff _ _).mp result
  exact ((setModule_effects _ ((getModule_ok_iff mod).mp present)).trans
    (refundClaim_effects _ _ _ refundedRun)).trans (emit_effects _ trivial)

theorem commitRoot_effects {before : DefiInsurance} (mod : DefiInsurance) (incidentId : Nat)
    (root : Hash) (poolPayouts : List Nat) (deployed : w.modules m = some before)
    (run : w.commitRoot m mod incidentId root poolPayouts = .ok next) :
    ModuleEffects platform m sender w next := by
  unfold World.commitRoot at run
  obtain ⟨_, -, run⟩ := (bind_ok_iff _ _ _).mp run
  obtain ⟨_, -, run⟩ := (bind_ok_iff _ _ _).mp run
  obtain ⟨deadline, -, result⟩ := (bind_ok_iff _ _ _).mp run
  cases (pure_ok_iff _ _).mp result
  exact delist_effects _ _ deployed

theorem settleIncident_effects (root : Hash) (poolPayouts : List Nat) (signature : List Byte)
    (run : w.settleIncident platform m root poolPayouts signature = .ok next) :
    ModuleEffects platform m sender w next := by
  unfold World.settleIncident at run
  obtain ⟨_, -, run⟩ := (bind_ok_iff _ _ _).mp run
  obtain ⟨_, -, run⟩ := (bind_ok_iff _ _ _).mp run
  obtain ⟨mod, present, run⟩ := (bind_ok_iff _ _ _).mp run
  obtain ⟨_, -, run⟩ := (bind_ok_iff _ _ _).mp run
  obtain ⟨_, -, run⟩ := (bind_ok_iff _ _ _).mp run
  obtain ⟨_, -, run⟩ := (bind_ok_iff _ _ _).mp run
  obtain ⟨_, -, run⟩ := (bind_ok_iff _ _ _).mp run
  obtain ⟨recovered, -, run⟩ := (bind_ok_iff _ _ _).mp run
  obtain ⟨_, -, run⟩ := (bind_ok_iff _ _ _).mp run
  obtain ⟨committed, committedRun, result⟩ := (bind_ok_iff _ _ _).mp run
  cases (pure_ok_iff _ _).mp result
  exact (commitRoot_effects mod _ root poolPayouts ((getModule_ok_iff mod).mp present)
    committedRun).trans (emit_effects _ trivial)

theorem adminCorrectSettlement_effects (caller : Address) (root : Hash) (poolPayouts : List Nat)
    (run : w.adminCorrectSettlement m caller root poolPayouts = .ok next) :
    ModuleEffects platform m sender w next := by
  unfold World.adminCorrectSettlement at run
  obtain ⟨_, -, run⟩ := (bind_ok_iff _ _ _).mp run
  obtain ⟨_, -, run⟩ := (bind_ok_iff _ _ _).mp run
  obtain ⟨_, -, run⟩ := (bind_ok_iff _ _ _).mp run
  obtain ⟨mod, present, run⟩ := (bind_ok_iff _ _ _).mp run
  obtain ⟨_, -, run⟩ := (bind_ok_iff _ _ _).mp run
  obtain ⟨_, -, run⟩ := (bind_ok_iff _ _ _).mp run
  obtain ⟨_, -, run⟩ := (bind_ok_iff _ _ _).mp run
  have deployed := (getModule_ok_iff mod).mp present
  rcases (ite_ok_iff _ _ _ _).mp run with ⟨-, run⟩ | ⟨-, run⟩
  · obtain ⟨_, -, result⟩ := (bind_ok_iff _ _ _).mp run
    cases (pure_ok_iff _ _).mp result
    exact (setModule_effects _ deployed).trans (emit_effects _ trivial)
  · obtain ⟨committed, committedRun, result⟩ := (bind_ok_iff _ _ _).mp run
    cases (pure_ok_iff _ _).mp result
    exact (commitRoot_effects mod _ root poolPayouts deployed committedRun).trans
      (emit_effects _ trivial)

theorem recoverClaim_effects {before : DefiInsurance} (caller : Address) (mod : DefiInsurance)
    (claimId : Nat) (acceptPayout : Bool) (deployed : w.modules m = some before)
    (run : w.recoverClaim m caller mod claimId acceptPayout = .ok next) :
    ModuleEffects platform m sender w next := by
  unfold World.recoverClaim World.resolveWithoutSettlement at run
  obtain ⟨_, -, run⟩ := (bind_ok_iff _ _ _).mp run
  obtain ⟨_, -, run⟩ := (bind_ok_iff _ _ _).mp run
  obtain ⟨unresolved, -, run⟩ := (bind_ok_iff _ _ _).mp run
  obtain ⟨refunded, refundedRun, result⟩ := (bind_ok_iff _ _ _).mp run
  cases (pure_ok_iff _ _).mp result
  exact ((setModule_effects _ deployed).trans (refundClaim_effects _ _ _ refundedRun)).trans
    (emit_effects _ trivial)

theorem releaseClaim_effects {before : DefiInsurance} (mod : DefiInsurance) (claimId : Nat)
    (paid : Bool) (row : PayoutRow) (deployed : w.modules m = some before)
    (run : w.releaseClaim m mod claimId paid row = .ok next) :
    ModuleEffects platform m sender w next := by
  unfold World.releaseClaim at run
  obtain ⟨_, -, run⟩ := (bind_ok_iff _ _ _).mp run
  obtain ⟨escrowed, -, run⟩ := (bind_ok_iff _ _ _).mp run
  obtain ⟨refunded, refundedRun, run⟩ := (bind_ok_iff _ _ _).mp run
  obtain ⟨boosted, boostedRun, run⟩ := (bind_ok_iff _ _ _).mp run
  have refundEffects : ModuleEffects platform m sender
      (w.setModule m (World.releasedModule mod claimId escrowed)) refunded := by
    rcases (ite_ok_iff _ _ _ _).mp refundedRun with ⟨-, ran⟩ | ⟨-, same⟩
    · exact transferErc20_effects _ m _ _ (Or.inl rfl) ran
    · rw [(pure_ok_iff _ _).mp same]
  exact (((setModule_effects _ deployed).trans refundEffects).trans
    (resolveBoosters_effects _ _ _ boostedRun)).trans (resolveClaimBond_effects _ _ run)

theorem payProtocolFee_effects (incidentId : Nat) (pool feeReceiver : Address)
    (protocolFee : Nat)
    (run : w.payProtocolFee m incidentId pool feeReceiver protocolFee = .ok next) :
    ModuleEffects platform m sender w next := by
  unfold World.payProtocolFee at run
  rcases (ite_ok_iff _ _ _ _).mp run with ⟨-, run⟩ | ⟨-, result⟩
  · obtain ⟨paid, paidRun, result⟩ := (bind_ok_iff _ _ _).mp run
    cases (pure_ok_iff _ _).mp result
    exact (callPool_effects pool (.payClaim _ _) trivial paidRun).trans (emit_effects _ trivial)
  · cases (pure_ok_iff _ _).mp result
    exact .refl

theorem payClaimAmount_effects (incidentId : Nat) (claimant feeReceiver : Address)
    (amounts : List Nat) (i : Nat)
    (run : World.payClaimAmount m incidentId claimant feeReceiver amounts w i = .ok next) :
    ModuleEffects platform m sender w next := by
  unfold World.payClaimAmount at run
  obtain ⟨amount, -, run⟩ := (bind_ok_iff _ _ _).mp run
  rcases (ite_ok_iff _ _ _ _).mp run with ⟨-, result⟩ | ⟨-, run⟩
  · cases (pure_ok_iff _ _).mp result
    exact .refl
  · obtain ⟨mod, present, run⟩ := (bind_ok_iff _ _ _).mp run
    obtain ⟨net, -, run⟩ := (bind_ok_iff _ _ _).mp run
    obtain ⟨grossAmount, -, run⟩ := (bind_ok_iff _ _ _).mp run
    obtain ⟨remaining, -, run⟩ := (bind_ok_iff _ _ _).mp run
    obtain ⟨_, -, run⟩ := (bind_ok_iff _ _ _).mp run
    obtain ⟨pool, -, run⟩ := (bind_ok_iff _ _ _).mp run
    obtain ⟨paid, paidRun, run⟩ := (bind_ok_iff _ _ _).mp run
    obtain ⟨protocolFee, -, run⟩ := (bind_ok_iff _ _ _).mp run
    exact ((setModule_effects _ ((getModule_ok_iff mod).mp present)).trans
      (callPool_effects pool (.payClaim _ _) trivial paidRun)).trans
      (payProtocolFee_effects incidentId pool feeReceiver protocolFee run)

theorem payClaimAmounts_effects (incidentId : Nat) (claimant : Address) (amounts : List Nat)
    (run : w.payClaimAmounts m incidentId claimant amounts = .ok next) :
    ModuleEffects platform m sender w next := by
  unfold World.payClaimAmounts at run
  obtain ⟨mod, -, run⟩ := (bind_ok_iff _ _ _).mp run
  apply foldlM_relates _ (ModuleEffects platform m sender) (fun _ => .refl)
    (fun _ _ _ => Relation.ReflTransGen.trans) _ _ w next run
  intro state i after ran
  exact payClaimAmount_effects incidentId claimant _ amounts i ran

theorem spendScore_effects (incidentId : Nat) (claimant : Address) (scoreSpent : Nat)
    (run : w.spendScore platform m incidentId claimant scoreSpent = .ok next) :
    ModuleEffects platform m sender w next := by
  unfold World.spendScore at run
  rcases (ite_ok_iff _ _ _ _).mp run with ⟨-, run⟩ | ⟨-, result⟩
  · obtain ⟨⟨registry, event⟩, recorded, result⟩ := (bind_ok_iff _ _ _).mp run
    cases (pure_ok_iff _ _).mp result
    exact (emit_effects (.scoreSpent _ _ _) trivial).trans
      (.single (.scored _ claimant scoreSpent registry event recorded))
  · cases (pure_ok_iff _ _).mp result
    exact .refl

theorem payAccepted_effects (incidentId : Nat) (claimant : Address) (row : PayoutRow)
    (run : w.payAccepted platform m incidentId claimant row = .ok next) :
    ModuleEffects platform m sender w next := by
  unfold World.payAccepted at run
  obtain ⟨paid, paidRun, run⟩ := (bind_ok_iff _ _ _).mp run
  exact (payClaimAmounts_effects incidentId claimant row.amounts paidRun).trans
    (spendScore_effects incidentId claimant row.scoreSpent run)

theorem closeClaim_effects (claimId : Nat) (paid eligible : Bool)
    (run : w.closeClaim m claimId paid eligible = .ok next) :
    ModuleEffects platform m sender w next := by
  unfold World.closeClaim at run
  obtain ⟨mod, present, run⟩ := (bind_ok_iff _ _ _).mp run
  obtain ⟨unresolved, -, result⟩ := (bind_ok_iff _ _ _).mp run
  cases (pure_ok_iff _ _).mp result
  refine (setModule_effects _ ((getModule_ok_iff mod).mp present)).trans (emit_effects _ ?_)
  split <;> exact trivial

theorem settleRow_effects {before : DefiInsurance} (caller : Address) (mod : DefiInsurance)
    (claimId : Nat) (acceptPayout : Bool) (row : PayoutRow) (proof : List Hash)
    (deployed : w.modules m = some before)
    (run : w.settleRow platform m caller mod claimId acceptPayout row proof = .ok next) :
    ModuleEffects platform m sender w next := by
  unfold World.settleRow at run
  obtain ⟨_, -, run⟩ := (bind_ok_iff _ _ _).mp run
  obtain ⟨released, releasedRun, run⟩ := (bind_ok_iff _ _ _).mp run
  obtain ⟨paid, paidRun, run⟩ := (bind_ok_iff _ _ _).mp run
  have payEffects : ModuleEffects platform m sender released paid := by
    rcases (ite_ok_iff _ _ _ _).mp paidRun with ⟨-, ran⟩ | ⟨-, same⟩
    · exact payAccepted_effects _ _ row ran
    · rw [(pure_ok_iff _ _).mp same]
  exact ((releaseClaim_effects mod claimId _ row deployed releasedRun).trans payEffects).trans
    (closeClaim_effects claimId _ _ run)

theorem finalizeClaim_effects (caller : Address) (claimId : Nat) (acceptPayout : Bool)
    (row : PayoutRow) (proof : List Hash)
    (run : w.finalizeClaim platform m caller claimId acceptPayout row proof = .ok next) :
    ModuleEffects platform m sender w next := by
  unfold World.finalizeClaim at run
  obtain ⟨mod, present, run⟩ := (bind_ok_iff _ _ _).mp run
  obtain ⟨_, -, run⟩ := (bind_ok_iff _ _ _).mp run
  obtain ⟨_, -, run⟩ := (bind_ok_iff _ _ _).mp run
  have deployed := (getModule_ok_iff mod).mp present
  rcases (ite_ok_iff _ _ _ _).mp run with ⟨-, run⟩ | ⟨-, run⟩
  · exact recoverClaim_effects caller mod claimId acceptPayout deployed run
  · exact settleRow_effects caller mod claimId acceptPayout row proof deployed run

theorem callModule_effects (call : ModuleCall)
    (run : w.callModule platform m sender call = .ok next) :
    ModuleEffects platform m sender w next := by
  unfold World.callModule at run
  obtain ⟨_, -, run⟩ := (bind_ok_iff _ _ _).mp run
  cases call with
  | setClaimBondAmount amount => exact setClaimBondAmount_effects sender amount run
  | setSettlementParams params => exact setSettlementParams_effects sender params run
  | setTeeSigner signer authorized => exact setTeeSigner_effects sender signer authorized run
  | editInsuredToken token recipe => exact editInsuredToken_effects sender token recipe run
  | sweepToken token recipient => exact sweepModuleToken_effects sender token recipient run
  | openClaimIncident token referenceBlock =>
      unfold World.openClaimIncident at run
      obtain ⟨_, -, run⟩ := (bind_ok_iff _ _ _).mp run
      exact openIncident_effects token referenceBlock _ run
  | fileClaim token insuredTokenAmount scoreToSpend boosterAmount referenceBlock signature =>
      exact fileClaim_effects token insuredTokenAmount scoreToSpend boosterAmount referenceBlock
        signature run
  | cancelClaim => exact cancelClaim_effects run
  | settleIncident root poolPayouts signature =>
      exact settleIncident_effects root poolPayouts signature run
  | adminCorrectSettlement root poolPayouts =>
      exact adminCorrectSettlement_effects sender root poolPayouts run
  | finalizeClaim claimId acceptPayout row proof =>
      exact finalizeClaim_effects sender claimId acceptPayout row proof run

/-- Only a deployed module answers. -/
theorem callModule_deployed (call : ModuleCall)
    (run : w.callModule platform m sender call = .ok next) : (w.modules m).isSome = true := by
  have read : ∀ mod, w.getModule m = .ok mod → (w.modules m).isSome = true := by
    intro mod present
    rw [(getModule_ok_iff mod).mp present]
    rfl
  unfold World.callModule at run
  obtain ⟨_, -, run⟩ := (bind_ok_iff _ _ _).mp run
  cases call with
  | setClaimBondAmount amount =>
      simp only [World.setClaimBondAmount, bind_ok_iff] at run
      obtain ⟨_, -, mod, present, -⟩ := run
      exact read mod present
  | setSettlementParams params =>
      simp only [World.setSettlementParams, bind_ok_iff] at run
      obtain ⟨_, -, mod, present, -⟩ := run
      exact read mod present
  | setTeeSigner signer authorized =>
      simp only [World.setTeeSigner, bind_ok_iff] at run
      obtain ⟨_, -, mod, present, -⟩ := run
      exact read mod present
  | editInsuredToken token recipe =>
      simp only [World.editInsuredToken, bind_ok_iff] at run
      obtain ⟨_, -, mod, present, -⟩ := run
      exact read mod present
  | sweepToken token recipient =>
      simp only [World.sweepModuleToken, bind_ok_iff] at run
      obtain ⟨_, -, mod, present, -⟩ := run
      exact read mod present
  | openClaimIncident token referenceBlock =>
      simp only [World.openClaimIncident, World.openIncident, bind_ok_iff] at run
      obtain ⟨_, -, _, -, mod, present, -⟩ := run
      exact read mod present
  | fileClaim token insuredTokenAmount scoreToSpend boosterAmount referenceBlock signature =>
      simp only [World.fileClaim, World.claimIncident, bind_ok_iff] at run
      obtain ⟨_, -, _, -, _, -, _, ⟨mod, present, -⟩, -⟩ := run
      exact read mod present
  | cancelClaim =>
      simp only [World.cancelClaim, bind_ok_iff] at run
      obtain ⟨mod, present, -⟩ := run
      exact read mod present
  | settleIncident root poolPayouts signature =>
      simp only [World.settleIncident, bind_ok_iff] at run
      obtain ⟨_, -, _, -, mod, present, -⟩ := run
      exact read mod present
  | adminCorrectSettlement root poolPayouts =>
      simp only [World.adminCorrectSettlement, bind_ok_iff] at run
      obtain ⟨_, -, _, -, _, -, mod, present, -⟩ := run
      exact read mod present
  | finalizeClaim claimId acceptPayout row proof =>
      simp only [World.finalizeClaim, bind_ok_iff] at run
      obtain ⟨mod, present, -⟩ := run
      exact read mod present

end Calls

end Usd8Core.Insurance
