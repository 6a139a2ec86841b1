import Usd8Core.Insurance.Effects

/-!
# What the module's calls do

The outcome of every successful call of the insurance module: the checks that
passed, the token transfers made and the storage left behind.
-/

set_option autoImplicit false

namespace Usd8Core.Insurance

open Usd8Core.Lib.ByteWords
open Usd8Core.Lib.CheckedCall
open Usd8Core.Lib.FiniteLedger
open Usd8Core.Chain

/-! ## Settings and sweeping -/

/-- Two storages of a module that agree on everything a claim depends on. -/
structure SameClaims (mod after : DefiInsurance) : Prop where
  incidents : after.incidents = mod.incidents
  windows : after.incidentPhaseWindow = mod.incidentPhaseWindow
  nextIncidentId : after.nextIncidentId = mod.nextIncidentId
  nextClaimId : after.nextClaimId = mod.nextClaimId
  claims : after.claims = mod.claims
  claimIds : after.claimIdByIncidentAndUser = mod.claimIdByIncidentAndUser
  escrowed : after.escrowedInsuredTokens = mod.escrowedInsuredTokens
  bonds : after.escrowedClaimBonds = mod.escrowedClaimBonds

theorem SameClaims.refl (mod : DefiInsurance) : SameClaims mod mod :=
  ⟨rfl, rfl, rfl, rfl, rfl, rfl, rfl, rfl⟩

/-- A world in which a module's storage was replaced, with at most a log about the
list of insured tokens. -/
def Stored (m : Address) (w next : World) (after : DefiInsurance) : Prop :=
  next = w.setModule m after ∨
    ∃ token, next = (w.setModule m after).emit m (.insuredTokenRemoved token)

/-- What settlement reads of a module's settings stays during an incident: the
windows, the signers and the recipes of listed tokens. -/
structure SettingsFrozen (now : Nat) (mod after : DefiInsurance) : Prop where
  params : mod.activeIncidentId now ≠ 0 → after.settlementParams = mod.settlementParams
  signers : mod.activeIncidentId now ≠ 0 → after.isTeeSigner = mod.isTeeSigner
  tokens : mod.activeIncidentId now ≠ 0 → ∀ token, (mod.insuredTokens token).maxCoverageBps ≠ 0 →
    after.insuredTokens token = mod.insuredTokens token

structure Configured (m : Address) (w next : World) : Prop where
  outcome : ∃ mod after, w.modules m = some mod ∧ Stored m w next after ∧ SameClaims mod after
  settings : ∃ mod after, w.modules m = some mod ∧ next.modules m = some after ∧
    SettingsFrozen w.now mod after

section Settings

variable {m sender : Address} {w next : World}

theorem setClaimBondAmount_ok (amount : Nat)
    (run : w.setClaimBondAmount m sender amount = .ok next) : Configured m w next := by
  unfold World.setClaimBondAmount at run
  obtain ⟨_, -, run⟩ := (bind_ok_iff _ _ _).mp run
  obtain ⟨mod, present, result⟩ := (bind_ok_iff _ _ _).mp run
  have deployed := (getModule_ok_iff mod).mp present
  cases (pure_ok_iff _ _).mp result
  exact ⟨⟨mod, _, deployed, Or.inl rfl, ⟨rfl, rfl, rfl, rfl, rfl, rfl, rfl, rfl⟩⟩,
    mod, _, deployed, setModule_self _, fun _ => rfl, fun _ => rfl, fun _ _ _ => rfl⟩

theorem setSettlementParams_ok (params : SettlementParams)
    (run : w.setSettlementParams m sender params = .ok next) : Configured m w next := by
  unfold World.setSettlementParams at run
  obtain ⟨_, -, run⟩ := (bind_ok_iff _ _ _).mp run
  obtain ⟨mod, present, run⟩ := (bind_ok_iff _ _ _).mp run
  obtain ⟨_, idle, run⟩ := (bind_ok_iff _ _ _).mp run
  obtain ⟨_, -, result⟩ := (bind_ok_iff _ _ _).mp run
  have deployed := (getModule_ok_iff mod).mp present
  have notActive := (revertIf_ok_iff _ _ _).mp idle
  cases (pure_ok_iff _ _).mp result
  exact ⟨⟨mod, _, deployed, Or.inl rfl, ⟨rfl, rfl, rfl, rfl, rfl, rfl, rfl, rfl⟩⟩,
    mod, _, deployed, setModule_self _, fun active => absurd active notActive,
    fun active => absurd active notActive, fun active => absurd active notActive⟩

theorem setTeeSigner_ok (signer : Address) (authorized : Bool)
    (run : w.setTeeSigner m sender signer authorized = .ok next) : Configured m w next := by
  unfold World.setTeeSigner at run
  obtain ⟨_, -, run⟩ := (bind_ok_iff _ _ _).mp run
  obtain ⟨mod, present, run⟩ := (bind_ok_iff _ _ _).mp run
  obtain ⟨_, idle, run⟩ := (bind_ok_iff _ _ _).mp run
  obtain ⟨_, -, result⟩ := (bind_ok_iff _ _ _).mp run
  have deployed := (getModule_ok_iff mod).mp present
  have notActive := (revertIf_ok_iff _ _ _).mp idle
  cases (pure_ok_iff _ _).mp result
  exact ⟨⟨mod, _, deployed, Or.inl rfl, ⟨rfl, rfl, rfl, rfl, rfl, rfl, rfl, rfl⟩⟩,
    mod, _, deployed, setModule_self _, fun active => absurd active notActive,
    fun active => absurd active notActive, fun active => absurd active notActive⟩

theorem Stored.modules {after : DefiInsurance} (stored : Stored m w next after) :
    next.modules m = some after := by
  rcases stored with rfl | ⟨token, rfl⟩
  · exact setModule_self _
  · exact setModule_self _

/-- What delisting a token leaves of the settings. -/
structure SettingsDelisted (mod after : DefiInsurance) (token : Address) : Prop where
  params : after.settlementParams = mod.settlementParams
  signers : after.isTeeSigner = mod.isTeeSigner
  others : ∀ other, other ≠ token → after.insuredTokens other = mod.insuredTokens other

theorem delist_stored (mod : DefiInsurance) (token : Address) :
    ∃ after, SameClaims mod after ∧ Stored m w (w.delist m mod token) after ∧
      SettingsDelisted mod after token := by
  unfold World.delist
  split
  · exact ⟨mod, SameClaims.refl mod, Or.inl rfl, rfl, rfl, fun _ _ => rfl⟩
  · exact ⟨mod.delistInsuredToken token, ⟨rfl, rfl, rfl, rfl, rfl, rfl, rfl, rfl⟩,
      Or.inr ⟨token, rfl⟩, rfl, rfl, fun other differ => Function.update_of_ne differ ..⟩

theorem editInsuredToken_ok (token : Address) (recipe : InsuredToken)
    (run : w.editInsuredToken m sender token recipe = .ok next) : Configured m w next := by
  unfold World.editInsuredToken at run
  obtain ⟨_, -, run⟩ := (bind_ok_iff _ _ _).mp run
  obtain ⟨mod, present, run⟩ := (bind_ok_iff _ _ _).mp run
  obtain ⟨_, -, run⟩ := (bind_ok_iff _ _ _).mp run
  have deployed := (getModule_ok_iff mod).mp present
  rcases (ite_ok_iff _ _ _ _).mp run with ⟨-, run⟩ | ⟨-, run⟩
  · obtain ⟨_, -, run⟩ := (bind_ok_iff _ _ _).mp run
    obtain ⟨_, idle, result⟩ := (bind_ok_iff _ _ _).mp run
    have notActive := (revertIf_ok_iff _ _ _).mp idle
    obtain ⟨after, same, stored, -⟩ := delist_stored (m := m) (w := w) mod token
    rw [(pure_ok_iff _ _).mp result] at stored
    exact ⟨⟨mod, after, deployed, stored, same⟩, mod, after, deployed, stored.modules,
      fun active => absurd active notActive, fun active => absurd active notActive,
      fun active => absurd active notActive⟩
  · obtain ⟨_, -, run⟩ := (bind_ok_iff _ _ _).mp run
    obtain ⟨_, -, run⟩ := (bind_ok_iff _ _ _).mp run
    obtain ⟨_, frozen, result⟩ := (bind_ok_iff _ _ _).mp run
    have notBoth := (revertIf_ok_iff _ _ _).mp frozen
    cases (pure_ok_iff _ _).mp result
    refine ⟨⟨mod, _, deployed, Or.inl rfl, ⟨rfl, rfl, rfl, rfl, rfl, rfl, rfl, rfl⟩⟩,
      mod, _, deployed, setModule_self _, fun _ => rfl, fun _ => rfl, ?_⟩
    intro active other isListed
    have differ : other ≠ token := by
      rintro rfl
      exact notBoth ⟨isListed, active⟩
    exact Function.update_of_ne differ ..

/-- What a module must keep of each token. -/
def escrowOf (registry : Registry) (mod : DefiInsurance) (token : Address) : Nat :=
  mod.escrowedInsuredTokens token + if token = registry.usd8 then mod.escrowedClaimBonds else 0

/-- The sweep sends what lies above the escrow. -/
structure Swept (m : Address) (w next : World) (token recipient : Address) (amount : Nat) :
    Prop where
  module : ∃ mod, w.modules m = some mod ∧ amount = w.erc20 token m - escrowOf w.registry mod token
  outcome : ∃ erc20, erc20Transfer w.erc20 token m recipient amount = .ok erc20 ∧
    next = ({ w with erc20 := erc20 } : World).emit m (.tokenSwept token recipient amount)

theorem sweepModuleToken_ok (token recipient : Address)
    (run : w.sweepModuleToken m sender token recipient = .ok next) :
    ∃ amount, Swept m w next token recipient amount := by
  unfold World.sweepModuleToken at run
  obtain ⟨_, -, run⟩ := (bind_ok_iff _ _ _).mp run
  obtain ⟨mod, present, run⟩ := (bind_ok_iff _ _ _).mp run
  obtain ⟨_, -, run⟩ := (bind_ok_iff _ _ _).mp run
  obtain ⟨_, -, run⟩ := (bind_ok_iff _ _ _).mp run
  obtain ⟨amount, amountRun, run⟩ := (bind_ok_iff _ _ _).mp run
  obtain ⟨_, -, run⟩ := (bind_ok_iff _ _ _).mp run
  obtain ⟨moved, movedRun, result⟩ := (bind_ok_iff _ _ _).mp run
  obtain ⟨erc20, transferred, movedEq⟩ := (transferErc20_ok_iff _ _ _ _).mp movedRun
  subst movedEq
  refine ⟨amount, ⟨mod, (getModule_ok_iff mod).mp present, ?_⟩, erc20, transferred,
    ((pure_ok_iff _ _).mp result).symm⟩
  unfold World.moduleSweepable at amountRun
  obtain ⟨accounted, accountedRun, amountRun⟩ := (bind_ok_iff _ _ _).mp amountRun
  rw [← (pure_ok_iff _ _).mp amountRun]
  congr 1
  unfold escrowOf
  rcases (ite_ok_iff _ _ _ _).mp accountedRun with ⟨isUsd8, added⟩ | ⟨notUsd8, same⟩
  · rw [if_pos isUsd8, ((checkedAdd_ok_iff _ _ _ _).mp added).2]
  · rw [if_neg notUsd8, Nat.add_zero, (pure_ok_iff _ _).mp same]

end Settings

/-! ## Opening an incident -/

/-- Settling the listed pools changes pools and logs only. -/
structure OnlyPools (w next : World) : Prop where
  block : next.block = w.block
  registry : next.registry = w.registry
  modules : next.modules = w.modules
  erc20 : next.erc20 = w.erc20
  erc1155 : next.erc1155 = w.erc1155

structure Opened (m : Address) (w next : World) (mod : DefiInsurance) (token : Address)
    (referenceBlock claimDeadline : Nat) (teePcrHash : Hash) : Prop where
  present : w.modules m = some mod
  idle : mod.activeIncidentId w.now = 0
  registered : w.registry.defiInsurance = m
  listed : (mod.insuredTokens token).maxCoverageBps ≠ 0
  deadline : claimDeadline = w.now + w.registry.incidentTimingConfig.phaseWindow
  idFits : mod.nextIncidentId + 1 < uintBound 64
  outcome : ∃ settled, w.settleListedPools m = .ok settled ∧ OnlyPools w settled ∧
    next = (settled.setModule m (World.openedModule mod token w.block w.registry referenceBlock
      claimDeadline teePcrHash)).emit m
        (.incidentOpened mod.nextIncidentId token claimDeadline
          w.registry.protocolFeeConfig.claimProtocolFeeShareBps)

section Opening

variable {m : Address} {w next : World}

theorem settleMatured_onlyPools (p : Address) (maxEpochs : Nat)
    (run : w.callPool p m (.settleMaturedExitEpochs maxEpochs) = .ok next) :
    OnlyPools w next := by
  obtain ⟨pool, tx, present, executed, nextEq⟩ := callPool_ok m _ run
  obtain ⟨sameBlock, sameRegistry, sameModules, sameErc1155, -⟩ := callPool_frame m _ run
  refine ⟨sameBlock, sameRegistry, sameModules, ?_, sameErc1155⟩
  obtain ⟨_, -, settleRun⟩ := (bind_ok_iff _ _ _).mp executed
  unfold PoolTx.settleMaturedExitEpochs at settleRun
  obtain ⟨_, -, settleRun⟩ := (bind_ok_iff _ _ _).mp settleRun
  obtain ⟨⟨final, events⟩, -, result⟩ := (bind_ok_iff _ _ _).mp settleRun
  cases (pure_ok_iff _ _).mp result
  rw [nextEq, emitAll_eq]

theorem settleListedPools_onlyPools (run : w.settleListedPools m = .ok next) :
    OnlyPools w next := by
  apply foldlM_relates _ OnlyPools (fun _ => ⟨rfl, rfl, rfl, rfl, rfl⟩) _ _ _ w next run
  · intro first second third before after
    exact ⟨after.block.trans before.block, after.registry.trans before.registry,
      after.modules.trans before.modules, after.erc20.trans before.erc20,
      after.erc1155.trans before.erc1155⟩
  · intro state p after ran
    exact settleMatured_onlyPools p _ ran

theorem openIncident_ok (token : Address) (referenceBlock : Nat) (teePcrHash : Hash)
    (run : w.openIncident m token referenceBlock teePcrHash = .ok next) :
    ∃ mod claimDeadline,
      Opened m w next mod token referenceBlock claimDeadline teePcrHash := by
  unfold World.openIncident at run
  obtain ⟨_, -, run⟩ := (bind_ok_iff _ _ _).mp run
  obtain ⟨mod, modRun, run⟩ := (bind_ok_iff _ _ _).mp run
  obtain ⟨_, listed, run⟩ := (bind_ok_iff _ _ _).mp run
  obtain ⟨_, idle, run⟩ := (bind_ok_iff _ _ _).mp run
  obtain ⟨_, registered, run⟩ := (bind_ok_iff _ _ _).mp run
  obtain ⟨_, -, run⟩ := (bind_ok_iff _ _ _).mp run
  obtain ⟨settled, settledRun, run⟩ := (bind_ok_iff _ _ _).mp run
  obtain ⟨settledMod, settledModRun, run⟩ := (bind_ok_iff _ _ _).mp run
  obtain ⟨_, idRun, run⟩ := (bind_ok_iff _ _ _).mp run
  obtain ⟨claimDeadline, deadlineRun, result⟩ := (bind_ok_iff _ _ _).mp run
  have only := settleListedPools_onlyPools settledRun
  have present := (getModule_ok_iff mod).mp modRun
  have sameMod : settledMod = mod := by
    have again := (getModule_ok_iff settledMod).mp settledModRun
    rw [only.modules, present] at again
    exact (Option.some.inj again).symm
  subst sameMod
  obtain ⟨-, deadlineEq⟩ := (checkedAdd_ok_iff _ _ _ _).mp deadlineRun
  have nowEq : settled.now = w.now := by rw [World.now, World.now, only.block]
  have nowFits : truncate 64 w.now = w.now := truncate_eq_self w.block.timestamp_lt
  rw [nowEq, nowFits] at deadlineEq
  refine ⟨settledMod, claimDeadline, present, not_not.mp ((revertIf_ok_iff _ _ _).mp idle),
    not_not.mp ((revertIf_ok_iff _ _ _).mp registered), (revertIf_ok_iff _ _ _).mp listed,
    deadlineEq,
    ((checkedAdd_ok_iff _ _ _ _).mp idRun).1, settled, settledRun, only, ?_⟩
  rw [← (pure_ok_iff _ _).mp result, only.block, only.registry]

end Opening

/-! ## Filing a claim -/

/-- The incident a claim can join, with no claim of the sender on it yet. -/
structure Joinable (mod : DefiInsurance) (now incidentId : Nat) (sender token : Address) :
    Prop where
  active : mod.activeIncidentId now = incidentId
  notZero : incidentId ≠ 0
  noRoot : (mod.incidents incidentId).root = Hash.zero
  sameToken : (mod.incidents incidentId).insuredToken = token
  inTime : now ≤ (mod.incidents incidentId).phaseDeadline
  noClaim : mod.claimIdByIncidentAndUser incidentId sender = 0

/-- Boosters come from the sender, through the configured collection. -/
def BoostersPulled (m sender : Address) (w : World) (boosterAmount : Nat) (erc1155 : Erc1155) :
    Prop :=
  (boosterAmount = 0 ∧ erc1155 = w.erc1155) ∨
    (boosterAmount ≠ 0 ∧ erc1155Transfer w.erc1155 w.registry.boosterConfig.collection
      w.registry.boosterConfig.tokenId sender m boosterAmount = .ok erc1155)

structure Registered (platform : Platform) (m sender : Address) (w next : World)
    (mod : DefiInsurance) (token : Address)
    (incidentId escrow scoreToSpend boosterAmount : Nat) : Prop where
  present : w.modules m = some mod
  escrowNotZero : escrow ≠ 0
  escrowFits : escrow < uintBound 128
  boostersFit : boosterAmount < uintBound 128
  idFits : mod.nextClaimId + 1 < uintBound 64
  outcome : ∃ insuredTokenAmount pulled bonded erc1155,
    erc20Transfer w.erc20 token sender m insuredTokenAmount = .ok pulled ∧
    w.erc20 token m + escrow = pulled token m ∧
    erc20Transfer pulled w.registry.usd8 sender m mod.claimBondAmount = .ok bonded ∧
    BoostersPulled m sender w boosterAmount erc1155 ∧
    next = (({ w with erc20 := bonded, erc1155 := erc1155 } : World).setModule m
      (World.registeredModule platform mod incidentId sender token escrow mod.claimBondAmount
        scoreToSpend boosterAmount)).emit m
        (.claimRegistered mod.nextClaimId incidentId sender escrow scoreToSpend boosterAmount)

section Filing

variable {platform : Platform} {m sender : Address} {w next : World}

theorem pullBoosters_ok (boosterAmount : Nat)
    (run : w.pullBoosters m sender boosterAmount = .ok next) :
    ∃ erc1155, BoostersPulled m sender w boosterAmount erc1155 ∧
      next = { w with erc1155 := erc1155 } := by
  unfold World.pullBoosters at run
  rcases (ite_ok_iff _ _ _ _).mp run with ⟨some, run⟩ | ⟨none, result⟩
  · obtain ⟨erc1155, transferred, result⟩ := (bind_ok_iff _ _ _).mp run
    exact ⟨erc1155, Or.inr ⟨some, transferred⟩, ((pure_ok_iff _ _).mp result).symm⟩
  · exact ⟨w.erc1155, Or.inl ⟨not_not.mp none, rfl⟩, ((pure_ok_iff _ _).mp result).symm⟩

theorem registerClaim_ok (token : Address)
    (insuredTokenAmount scoreToSpend boosterAmount incidentId : Nat)
    (run : w.registerClaim platform m sender token insuredTokenAmount scoreToSpend boosterAmount
      incidentId = .ok next) :
    ∃ mod escrow, Registered platform m sender w next mod token incidentId escrow scoreToSpend
      boosterAmount := by
  unfold World.registerClaim at run
  obtain ⟨mod, present, run⟩ := (bind_ok_iff _ _ _).mp run
  obtain ⟨⟨pulled, received⟩, pulledRun, run⟩ := (bind_ok_iff _ _ _).mp run
  obtain ⟨escrow, escrowRun, run⟩ := (bind_ok_iff _ _ _).mp run
  obtain ⟨_, escrowNotZero, run⟩ := (bind_ok_iff _ _ _).mp run
  obtain ⟨_, -, run⟩ := (bind_ok_iff _ _ _).mp run
  obtain ⟨bonded, bondedRun, run⟩ := (bind_ok_iff _ _ _).mp run
  obtain ⟨_, -, run⟩ := (bind_ok_iff _ _ _).mp run
  obtain ⟨_, idRun, run⟩ := (bind_ok_iff _ _ _).mp run
  obtain ⟨_, -, run⟩ := (bind_ok_iff _ _ _).mp run
  obtain ⟨_, boosterRun, run⟩ := (bind_ok_iff _ _ _).mp run
  obtain ⟨boosted, boostedRun, run⟩ := (bind_ok_iff _ _ _).mp run
  obtain ⟨_, -, result⟩ := (bind_ok_iff _ _ _).mp run
  unfold World.pullToken at pulledRun
  obtain ⟨moved, movedRun, pulledRun⟩ := (bind_ok_iff _ _ _).mp pulledRun
  obtain ⟨delta, deltaRun, pulledResult⟩ := (bind_ok_iff _ _ _).mp pulledRun
  cases (pure_ok_iff _ _).mp pulledResult
  obtain ⟨pulledLedger, transferred, pulledEq⟩ := (transferErc20_ok_iff _ _ _ _).mp movedRun
  subst pulledEq
  obtain ⟨bondedLedger, bondTransferred, bondedEq⟩ := (transferErc20_ok_iff _ _ _ _).mp bondedRun
  subst bondedEq
  obtain ⟨erc1155, boosters, boostedEq⟩ := pullBoosters_ok boosterAmount boostedRun
  subst boostedEq
  obtain ⟨grown, deltaEq⟩ := (checkedSub_ok_iff _ _ _).mp deltaRun
  obtain ⟨fits, escrowEq⟩ := (safeCast_ok_iff _ _ _).mp escrowRun
  have grownLedger : w.erc20 token m ≤ pulledLedger token m := grown
  have deltaLedger : received = pulledLedger token m - w.erc20 token m := deltaEq
  refine ⟨mod, escrow, (getModule_ok_iff mod).mp present,
    (revertIf_ok_iff _ _ _).mp escrowNotZero, by rw [escrowEq]; exact fits,
    ((safeCast_ok_iff _ _ _).mp boosterRun).1, ((checkedAdd_ok_iff _ _ _ _).mp idRun).1,
    insuredTokenAmount, pulledLedger, bondedLedger, erc1155, transferred, ?_, bondTransferred,
    boosters, ((pure_ok_iff _ _).mp result).symm⟩
  rw [escrowEq, deltaLedger]
  omega

/-- Opening leaves the new incident active and without claims. -/
theorem Opened.joinable (mod : DefiInsurance) (token : Address)
    (referenceBlock claimDeadline : Nat) (teePcrHash : Hash)
    (opened : Opened m w next mod token referenceBlock claimDeadline teePcrHash)
    (firstId : mod.nextIncidentId ≠ 0)
    (fresh : (mod.incidents mod.nextIncidentId).root = Hash.zero)
    (noClaims : mod.claimIdByIncidentAndUser mod.nextIncidentId sender = 0) :
    ∃ after, next.modules m = some after ∧
      Joinable after next.now mod.nextIncidentId sender token := by
  obtain ⟨settled, -, only, nextEq⟩ := opened.outcome
  have sameNow : next.now = w.now := by
    rw [nextEq]
    exact congrArg Block.timestamp only.block
  refine ⟨World.openedModule mod token w.block w.registry referenceBlock claimDeadline teePcrHash,
    by rw [nextEq]; exact setModule_self _, ?_⟩
  have inTime : next.now ≤ claimDeadline := by
    rw [sameNow, opened.deadline]
    exact Nat.le_add_right _ _
  have stored : (World.openedModule mod token w.block w.registry referenceBlock claimDeadline
      teePcrHash).incidents mod.nextIncidentId = { mod.incidents mod.nextIncidentId with
        insuredToken := token
        referenceBlock := referenceBlock
        openBlock := truncate 64 w.block.number
        phaseDeadline := claimDeadline
        protocolFeeShareBps := w.registry.protocolFeeConfig.claimProtocolFeeShareBps
        pools := w.registry.coverPools
        teePcrHash := teePcrHash } := Function.update_self ..
  have lastId : (World.openedModule mod token w.block w.registry referenceBlock claimDeadline
      teePcrHash).nextIncidentId - 1 = mod.nextIncidentId := Nat.add_sub_cancel ..
  refine ⟨?_, firstId, by rw [stored]; exact fresh, by rw [stored], by rw [stored]; exact inTime,
    noClaims⟩
  unfold DefiInsurance.activeIncidentId
  rw [lastId]
  dsimp only
  rw [if_neg firstId, stored, if_pos inTime]

theorem checkJoin_ok (mod : DefiInsurance) (incidentId : Nat) (token : Address)
    (referenceBlock : Nat) (signature : List Byte) (result : Unit)
    (active : mod.activeIncidentId w.now = incidentId) (notZero : incidentId ≠ 0)
    (run : w.checkJoin mod incidentId sender token referenceBlock signature = .ok result) :
    Joinable mod w.now incidentId sender token := by
  unfold World.checkJoin at run
  obtain ⟨_, -, run⟩ := (bind_ok_iff _ _ _).mp run
  obtain ⟨_, noRoot, run⟩ := (bind_ok_iff _ _ _).mp run
  obtain ⟨_, sameToken, run⟩ := (bind_ok_iff _ _ _).mp run
  obtain ⟨_, inTime, noClaim⟩ := (bind_ok_iff _ _ _).mp run
  exact ⟨active, notZero, not_not.mp ((revertIf_ok_iff _ _ _).mp noRoot),
    not_not.mp ((revertIf_ok_iff _ _ _).mp sameToken),
    Nat.le_of_not_lt ((revertIf_ok_iff _ _ _).mp inTime),
    not_not.mp ((revertIf_ok_iff _ _ _).mp noClaim)⟩

/-- The first half of `fileClaim`: the incident was opened or joined. -/
theorem claimIncident_ok (token : Address) (referenceBlock : Nat) (signature : List Byte)
    (incidentId : Nat)
    (run : w.claimIncident platform m sender token referenceBlock signature =
      .ok (next, incidentId)) :
    (∃ mod claimDeadline, mod.nextIncidentId = incidentId ∧
        Opened m w next mod token referenceBlock claimDeadline w.registry.teePcrHash) ∨
      (next = w ∧ ∃ mod, w.modules m = some mod ∧
        Joinable mod w.now incidentId sender token) := by
  unfold World.claimIncident at run
  obtain ⟨mod, present, run⟩ := (bind_ok_iff _ _ _).mp run
  have deployed := (getModule_ok_iff mod).mp present
  rcases (ite_ok_iff _ _ _ _).mp run with ⟨-, run⟩ | ⟨notZero, run⟩
  · obtain ⟨_, -, run⟩ := (bind_ok_iff _ _ _).mp run
    obtain ⟨recovered, -, run⟩ := (bind_ok_iff _ _ _).mp run
    obtain ⟨_, -, run⟩ := (bind_ok_iff _ _ _).mp run
    obtain ⟨world, openRun, result⟩ := (bind_ok_iff _ _ _).mp run
    cases (pure_ok_iff _ _).mp result
    obtain ⟨opening, claimDeadline, opened⟩ := openIncident_ok token referenceBlock _ openRun
    have sameMod : opening = mod :=
      Option.some.inj (opened.present.symm.trans deployed)
    subst sameMod
    exact Or.inl ⟨opening, claimDeadline, rfl, opened⟩
  · obtain ⟨_, checked, result⟩ := (bind_ok_iff _ _ _).mp run
    cases (pure_ok_iff _ _).mp result
    exact Or.inr ⟨rfl, mod, deployed,
      checkJoin_ok mod _ token referenceBlock signature _ rfl notZero checked⟩

end Filing

/-! ## Refunds -/

/-- What is burnt and returned lowers the module's boosters by the claim's at most. -/
structure BoostersResolved (m : Address) (w : World) (claim : Claim) (erc1155 : Erc1155) :
    Prop where
  held : w.erc1155 w.registry.boosterConfig.collection w.registry.boosterConfig.tokenId m ≤
    erc1155 w.registry.boosterConfig.collection w.registry.boosterConfig.tokenId m +
      claim.boosterAmount

/-- The storage after a full refund. -/
def refundedModule (base : DefiInsurance) (claim : Claim) (token : Address) : DefiInsurance :=
  { base with
    escrowedClaimBonds := base.escrowedClaimBonds - claim.bondAmount
    escrowedInsuredTokens := Function.update base.escrowedInsuredTokens token
      (base.escrowedInsuredTokens token - claim.insuredTokenAmount) }

structure Refunded (m : Address) (w : World) (base : DefiInsurance) (claim : Claim)
    (token recipient : Address) (erc20 : Erc20) (erc1155 : Erc1155) : Prop where
  boosters : BoostersResolved m w claim erc1155
  bondHeld : claim.bondAmount ≤ base.escrowedClaimBonds
  tokensHeld : claim.insuredTokenAmount ≤ base.escrowedInsuredTokens token
  moved : ∃ bonded, erc20Transfer w.erc20 w.registry.usd8 m recipient claim.bondAmount =
      .ok bonded ∧
    erc20Transfer bonded token m recipient claim.insuredTokenAmount = .ok erc20

section Refunds

variable {m : Address} {w next : World}

theorem resolveBoosters_ok (claim : Claim) (recipient : Address) (burnAmount : Nat)
    (bounded : burnAmount ≤ claim.boosterAmount)
    (run : w.resolveBoosters m claim recipient burnAmount = .ok next) :
    ∃ erc1155, BoostersResolved m w claim erc1155 ∧ next = { w with erc1155 := erc1155 } := by
  unfold World.resolveBoosters at run
  rcases (ite_ok_iff _ _ _ _).mp run with ⟨-, run⟩ | ⟨-, result⟩
  · obtain ⟨burnt, burntRun, run⟩ := (bind_ok_iff _ _ _).mp run
    obtain ⟨returned, returnedRun, result⟩ := (bind_ok_iff _ _ _).mp run
    refine ⟨returned, ⟨?_⟩, ((pure_ok_iff _ _).mp result).symm⟩
    generalize w.registry.boosterConfig.collection = collection at burntRun returnedRun ⊢
    generalize w.registry.boosterConfig.tokenId = id at burntRun returnedRun ⊢
    have burntHeld : w.erc1155 collection id m ≤ burnt collection id m + burnAmount := by
      rcases (ite_ok_iff _ _ _ _).mp burntRun with ⟨-, ran⟩ | ⟨-, same⟩
      · obtain ⟨-, enough, burntEq⟩ := (erc1155Burn_ok_iff _ _ _ _ _ _).mp ran
        rw [burntEq, Function.update_self, Function.update_self, Function.update_self]
        omega
      · rw [(pure_ok_iff _ _).mp same]
        exact Nat.le_add_right _ _
    have returnedHeld : burnt collection id m ≤
        returned collection id m + (claim.boosterAmount - burnAmount) := by
      rcases (ite_ok_iff _ _ _ _).mp returnedRun with ⟨-, ran⟩ | ⟨-, same⟩
      · obtain ⟨-, -, enough, returnedEq⟩ := (erc1155Transfer_ok_iff _ _ _ _ _ _ _).mp ran
        rw [returnedEq, Function.update_self, Function.update_self]
        exact le_moveBalance_add _ m recipient m _ enough
      · rw [(pure_ok_iff _ _).mp same]
        exact Nat.le_add_right _ _
    omega
  · exact ⟨w.erc1155, ⟨Nat.le_add_right _ _⟩, ((pure_ok_iff _ _).mp result).symm⟩

theorem resolveClaimBond_ok (base : DefiInsurance) (claim : Claim) (recipient : Address)
    (present : w.modules m = some base)
    (run : w.resolveClaimBond m claim recipient = .ok next) :
    claim.bondAmount ≤ base.escrowedClaimBonds ∧ ∃ erc20,
      erc20Transfer w.erc20 w.registry.usd8 m recipient claim.bondAmount = .ok erc20 ∧
      next = ({ w with erc20 := erc20 } : World).setModule m
        { base with escrowedClaimBonds := base.escrowedClaimBonds - claim.bondAmount } := by
  unfold World.resolveClaimBond at run
  obtain ⟨moved, movedRun, run⟩ := (bind_ok_iff _ _ _).mp run
  obtain ⟨mod, modRun, run⟩ := (bind_ok_iff _ _ _).mp run
  obtain ⟨bonds, bondsRun, result⟩ := (bind_ok_iff _ _ _).mp run
  obtain ⟨erc20, transferred, movedEq⟩ := (transferErc20_ok_iff _ _ _ _).mp movedRun
  subst movedEq
  have sameMod : mod = base :=
    Option.some.inj (((getModule_ok_iff mod).mp modRun).symm.trans present)
  subst sameMod
  obtain ⟨held, bondsEq⟩ := (checkedSub_ok_iff _ _ _).mp bondsRun
  subst bondsEq
  exact ⟨held, erc20, transferred, ((pure_ok_iff _ _).mp result).symm⟩

theorem refundClaim_ok (base : DefiInsurance) (claim : Claim) (token recipient : Address)
    (present : w.modules m = some base)
    (run : w.refundClaim m claim token recipient = .ok next) :
    ∃ erc20 erc1155, Refunded m w base claim token recipient erc20 erc1155 ∧
      next = ({ w with erc20 := erc20, erc1155 := erc1155 } : World).setModule m
        (refundedModule base claim token) := by
  unfold World.refundClaim at run
  obtain ⟨boosted, boostedRun, run⟩ := (bind_ok_iff _ _ _).mp run
  obtain ⟨bonded, bondedRun, run⟩ := (bind_ok_iff _ _ _).mp run
  obtain ⟨moved, movedRun, run⟩ := (bind_ok_iff _ _ _).mp run
  obtain ⟨mod, modRun, run⟩ := (bind_ok_iff _ _ _).mp run
  obtain ⟨escrowed, escrowedRun, result⟩ := (bind_ok_iff _ _ _).mp run
  obtain ⟨erc1155, boosters, boostedEq⟩ :=
    resolveBoosters_ok claim recipient 0 (Nat.zero_le _) boostedRun
  subst boostedEq
  obtain ⟨bondHeld, bondedLedger, bondTransferred, bondedEq⟩ :=
    resolveClaimBond_ok (w := { w with erc1155 := erc1155 }) base claim recipient present bondedRun
  subst bondedEq
  obtain ⟨erc20, transferred, movedEq⟩ := (transferErc20_ok_iff _ _ _ _).mp movedRun
  subst movedEq
  have sameMod : mod = { base with
      escrowedClaimBonds := base.escrowedClaimBonds - claim.bondAmount } := by
    have stored := (getModule_ok_iff mod).mp modRun
    exact Option.some.inj (stored.symm.trans (setModule_self _))
  subst sameMod
  obtain ⟨tokensHeld, escrowedEq⟩ := (checkedSub_ok_iff _ _ _).mp escrowedRun
  subst escrowedEq
  refine ⟨erc20, erc1155, ⟨boosters, bondHeld, tokensHeld, bondedLedger, bondTransferred,
    transferred⟩, ?_⟩
  rw [← (pure_ok_iff _ _).mp result]
  exact setModule_setModule (w := { w with erc20 := erc20, erc1155 := erc1155 })
    { base with escrowedClaimBonds := base.escrowedClaimBonds - claim.bondAmount }
    (refundedModule base claim token)

end Refunds

structure Cancelled (platform : Platform) (m sender : Address) (w next : World)
    (mod : DefiInsurance) (incidentId claimId : Nat) : Prop where
  present : w.modules m = some mod
  active : mod.activeIncidentId w.now = incidentId
  claimOfSender : mod.claimIdByIncidentAndUser incidentId sender = claimId
  claimNotZero : claimId ≠ 0
  noRoot : (mod.incidents incidentId).root = Hash.zero
  inTime : w.now ≤ (mod.incidents incidentId).phaseDeadline
  unresolved : (mod.claims claimId).resolved = false
  counted : 1 ≤ (mod.incidents incidentId).unresolvedClaims
  outcome : ∃ base erc20 erc1155,
    base = World.cancelledModule platform mod incidentId claimId sender
      ((mod.incidents incidentId).unresolvedClaims - 1) ∧
    Refunded m w base (mod.claims claimId) (mod.incidents incidentId).insuredToken sender erc20
      erc1155 ∧
    next = (({ w with erc20 := erc20, erc1155 := erc1155 } : World).setModule m
      (refundedModule base (mod.claims claimId) (mod.incidents incidentId).insuredToken)).emit m
        (.claimCancelled claimId sender)

/-- The storage `_resolveWithoutSettlement` leaves before the refund. -/
def recoveredBase (mod : DefiInsurance) (claimId now : Nat) : DefiInsurance :=
  (mod.setClaim claimId { mod.claims claimId with resolved := true }).setIncident
    (mod.claims claimId).incidentId
    (World.closedIncident (mod.incidents (mod.claims claimId).incidentId)
      ((mod.incidents (mod.claims claimId).incidentId).unresolvedClaims - 1) now)

structure Recovered (m sender : Address) (w next : World) (mod : DefiInsurance)
    (claimId : Nat) : Prop where
  present : w.modules m = some mod
  filed : (mod.claims claimId).user ≠ Address.zero
  unresolved : (mod.claims claimId).resolved = false
  owner : sender = (mod.claims claimId).user
  noSettlement : w.registry.defiInsurance ≠ m ∨
    (mod.incidents (mod.claims claimId).incidentId).root = Hash.zero
  expired : w.registry.defiInsurance ≠ m ∨
    (mod.incidents (mod.claims claimId).incidentId).phaseDeadline +
      mod.incidentPhaseWindow (mod.claims claimId).incidentId < w.now
  counted : 1 ≤ (mod.incidents (mod.claims claimId).incidentId).unresolvedClaims
  outcome : ∃ erc20 erc1155,
    Refunded m w (recoveredBase mod claimId w.now) (mod.claims claimId)
      (mod.incidents (mod.claims claimId).incidentId).insuredToken sender erc20 erc1155 ∧
    next = (({ w with erc20 := erc20, erc1155 := erc1155 } : World).setModule m
      (refundedModule (recoveredBase mod claimId w.now) (mod.claims claimId)
        (mod.incidents (mod.claims claimId).incidentId).insuredToken)).emit m
        (.claimDeclined claimId sender false)

section Closing

variable {platform : Platform} {m sender : Address} {w next : World}

/-- A refund made after a write to the module's storage. -/
theorem refundAfter_ok (base : DefiInsurance) (claim : Claim) (token recipient : Address)
    (run : (w.setModule m base).refundClaim m claim token recipient = .ok next) :
    ∃ erc20 erc1155, Refunded m w base claim token recipient erc20 erc1155 ∧
      next = ({ w with erc20 := erc20, erc1155 := erc1155 } : World).setModule m
        (refundedModule base claim token) := by
  obtain ⟨erc20, erc1155, refunded, nextEq⟩ :=
    refundClaim_ok base claim token recipient (setModule_self base) run
  refine ⟨erc20, erc1155, ⟨⟨refunded.boosters.held⟩, refunded.bondHeld, refunded.tokensHeld,
    refunded.moved⟩, ?_⟩
  rw [nextEq]
  exact setModule_setModule (w := { w with erc20 := erc20, erc1155 := erc1155 }) base
    (refundedModule base claim token)

theorem cancelClaim_ok (run : w.cancelClaim platform m sender = .ok next) :
    ∃ mod incidentId claimId, Cancelled platform m sender w next mod incidentId claimId := by
  unfold World.cancelClaim at run
  obtain ⟨mod, present, run⟩ := (bind_ok_iff _ _ _).mp run
  obtain ⟨_, claimNotZero, run⟩ := (bind_ok_iff _ _ _).mp run
  obtain ⟨_, noRoot, run⟩ := (bind_ok_iff _ _ _).mp run
  obtain ⟨_, inTime, run⟩ := (bind_ok_iff _ _ _).mp run
  obtain ⟨_, unresolved, run⟩ := (bind_ok_iff _ _ _).mp run
  obtain ⟨left, leftRun, run⟩ := (bind_ok_iff _ _ _).mp run
  obtain ⟨refunded, refundedRun, result⟩ := (bind_ok_iff _ _ _).mp run
  obtain ⟨counted, leftEq⟩ := (checkedSub_ok_iff _ _ _).mp leftRun
  subst leftEq
  obtain ⟨erc20, erc1155, refund, refundedEq⟩ := refundAfter_ok _ _ _ _ refundedRun
  subst refundedEq
  exact ⟨mod, _, _, (getModule_ok_iff mod).mp present, rfl, rfl,
    (revertIf_ok_iff _ _ _).mp claimNotZero, not_not.mp ((revertIf_ok_iff _ _ _).mp noRoot),
    Nat.le_of_not_lt ((revertIf_ok_iff _ _ _).mp inTime),
    by simpa using (revertIf_ok_iff _ _ _).mp unresolved, counted,
    _, erc20, erc1155, rfl, refund, ((pure_ok_iff _ _).mp result).symm⟩

theorem recoverClaim_ok (mod : DefiInsurance) (claimId : Nat) (acceptPayout : Bool)
    (present : w.modules m = some mod) (filed : (mod.claims claimId).user ≠ Address.zero)
    (unresolved : (mod.claims claimId).resolved = false)
    (noSettlement : w.registry.defiInsurance ≠ m ∨
      (mod.incidents (mod.claims claimId).incidentId).root = Hash.zero)
    (run : w.recoverClaim m sender mod claimId acceptPayout = .ok next) :
    acceptPayout = false ∧ Recovered m sender w next mod claimId := by
  unfold World.recoverClaim World.resolveWithoutSettlement at run
  obtain ⟨_, owner, run⟩ := (bind_ok_iff _ _ _).mp run
  obtain ⟨_, expired, run⟩ := (bind_ok_iff _ _ _).mp run
  obtain ⟨left, leftRun, run⟩ := (bind_ok_iff _ _ _).mp run
  obtain ⟨refunded, refundedRun, result⟩ := (bind_ok_iff _ _ _).mp run
  obtain ⟨counted, leftEq⟩ := (checkedSub_ok_iff _ _ _).mp leftRun
  subst leftEq
  obtain ⟨erc20, erc1155, refund, refundedEq⟩ := refundAfter_ok _ _ _ _ refundedRun
  subst refundedEq
  have checked := (revertIf_ok_iff _ _ _).mp expired
  rw [not_or, not_not] at checked
  exact ⟨by simpa using checked.1, present, filed, unresolved,
    not_not.mp ((revertIf_ok_iff _ _ _).mp owner), noSettlement, checked.2, counted,
    erc20, erc1155, refund, ((pure_ok_iff _ _).mp result).symm⟩

end Closing

/-! ## Committing a settlement -/

/-- A root and budgets written to the active incident. -/
structure Committed (m : Address) (w next : World) (mod : DefiInsurance) (incidentId : Nat)
    (root : Hash) (poolPayouts : List Nat) (deadline : Nat) : Prop where
  present : w.modules m = some mod
  active : mod.activeIncidentId w.now = incidentId
  notZero : incidentId ≠ 0
  registered : w.registry.defiInsurance = m
  rootNotZero : root ≠ Hash.zero
  phase : ((mod.incidents incidentId).root = Hash.zero ∧
      (mod.incidents incidentId).phaseDeadline < w.now ∧
      w.now ≤ (mod.incidents incidentId).phaseDeadline + mod.incidentPhaseWindow incidentId) ∨
    ((mod.incidents incidentId).root ≠ Hash.zero ∧
      w.now ≤ (mod.incidents incidentId).phaseDeadline)
  lengths : poolPayouts.length = (mod.incidents incidentId).pools.length
  caps : w.checkPayoutCaps 0 (mod.incidents incidentId).pools poolPayouts = .ok ()
  deadlineEq : deadline =
    if w.registry.betaMode = true then w.now + mod.incidentPhaseWindow incidentId else w.now
  outcome : ∃ stored after event,
    SameClaims (mod.setIncident incidentId { mod.incidents incidentId with
      poolBudget := poolPayouts, root := root, phaseDeadline := deadline }) after ∧
    Stored m w stored after ∧ next = stored.emit m event ∧
    ((∃ teePcrHash, event = .incidentSettled incidentId root teePcrHash) ∨
      event = .incidentCorrected incidentId root)
  settings : ∃ after, next.modules m = some after ∧
    SettingsDelisted mod after (mod.incidents incidentId).insuredToken

/-- A settlement taken back by governance. -/
structure Voided (m : Address) (w next : World) (mod : DefiInsurance) (incidentId : Nat) :
    Prop where
  present : w.modules m = some mod
  active : mod.activeIncidentId w.now = incidentId
  notZero : incidentId ≠ 0
  registered : w.registry.defiInsurance = m
  hadRoot : (mod.incidents incidentId).root ≠ Hash.zero
  inTime : w.now ≤ (mod.incidents incidentId).phaseDeadline
  outcome : next = (w.setModule m (mod.setIncident incidentId
    (World.voidedIncident (mod.incidents incidentId) w.now))).emit m
      (.incidentCorrected incidentId Hash.zero)

section Committing

variable {platform : Platform} {m sender : Address} {w next : World}

theorem commitRoot_ok (mod : DefiInsurance) (incidentId : Nat) (root : Hash)
    (poolPayouts : List Nat)
    (run : w.commitRoot m mod incidentId root poolPayouts = .ok next) :
    poolPayouts.length = (mod.incidents incidentId).pools.length ∧
      w.checkPayoutCaps 0 (mod.incidents incidentId).pools poolPayouts = .ok () ∧
      ∃ deadline after, deadline =
          (if w.registry.betaMode = true then w.now + mod.incidentPhaseWindow incidentId
            else w.now) ∧
        SameClaims (mod.setIncident incidentId { mod.incidents incidentId with
          poolBudget := poolPayouts, root := root, phaseDeadline := deadline }) after ∧
        Stored m w next after ∧
        SettingsDelisted mod after (mod.incidents incidentId).insuredToken := by
  unfold World.commitRoot at run
  obtain ⟨_, lengths, run⟩ := (bind_ok_iff _ _ _).mp run
  obtain ⟨_, caps, run⟩ := (bind_ok_iff _ _ _).mp run
  obtain ⟨deadline, deadlineRun, result⟩ := (bind_ok_iff _ _ _).mp run
  have nowFits : truncate 64 w.now = w.now := truncate_eq_self w.block.timestamp_lt
  rw [nowFits] at deadlineRun
  have deadlineEq : deadline =
      if w.registry.betaMode = true then w.now + mod.incidentPhaseWindow incidentId
      else w.now := by
    rcases (ite_ok_iff _ _ _ _).mp deadlineRun with ⟨beta, added⟩ | ⟨notBeta, same⟩
    · rw [if_pos beta]
      exact ((checkedAdd_ok_iff _ _ _ _).mp added).2
    · rw [if_neg notBeta]
      exact ((pure_ok_iff _ _).mp same).symm
  obtain ⟨after, same, stored, settings⟩ := delist_stored (m := m) (w := w)
    (mod.setIncident incidentId { mod.incidents incidentId with
      poolBudget := poolPayouts, root := root, phaseDeadline := deadline })
    (mod.incidents incidentId).insuredToken
  rw [(pure_ok_iff _ _).mp result] at stored
  exact ⟨not_not.mp ((revertIf_ok_iff _ _ _).mp lengths), caps, deadline, after, deadlineEq, same,
    stored, settings.params, settings.signers, settings.others⟩

theorem settleIncident_ok (root : Hash) (poolPayouts : List Nat) (signature : List Byte)
    (run : w.settleIncident platform m root poolPayouts signature = .ok next) :
    ∃ mod incidentId deadline,
      Committed m w next mod incidentId root poolPayouts deadline := by
  unfold World.settleIncident at run
  obtain ⟨_, -, run⟩ := (bind_ok_iff _ _ _).mp run
  obtain ⟨_, registered, run⟩ := (bind_ok_iff _ _ _).mp run
  obtain ⟨mod, present, run⟩ := (bind_ok_iff _ _ _).mp run
  obtain ⟨_, notZero, run⟩ := (bind_ok_iff _ _ _).mp run
  obtain ⟨_, rootNotZero, run⟩ := (bind_ok_iff _ _ _).mp run
  obtain ⟨_, noRoot, run⟩ := (bind_ok_iff _ _ _).mp run
  obtain ⟨_, inPhase, run⟩ := (bind_ok_iff _ _ _).mp run
  obtain ⟨recovered, -, run⟩ := (bind_ok_iff _ _ _).mp run
  obtain ⟨_, -, run⟩ := (bind_ok_iff _ _ _).mp run
  obtain ⟨stored, committedRun, result⟩ := (bind_ok_iff _ _ _).mp run
  obtain ⟨lengths, caps, deadline, after, deadlineEq, same, storedAfter, settings⟩ :=
    commitRoot_ok mod _ root poolPayouts committedRun
  have window := (revertIf_ok_iff _ _ _).mp inPhase
  rw [not_or, not_le, not_lt] at window
  exact ⟨mod, _, deadline, (getModule_ok_iff mod).mp present, rfl,
    (revertIf_ok_iff _ _ _).mp notZero, not_not.mp ((revertIf_ok_iff _ _ _).mp registered),
    (revertIf_ok_iff _ _ _).mp rootNotZero,
    Or.inl ⟨not_not.mp ((revertIf_ok_iff _ _ _).mp noRoot), window.1, window.2⟩, lengths, caps,
    deadlineEq, ⟨stored, after, _, same, storedAfter, ((pure_ok_iff _ _).mp result).symm,
      Or.inl ⟨_, rfl⟩⟩,
    after, by rw [← (pure_ok_iff _ _).mp result]; exact storedAfter.modules, settings⟩

theorem adminCorrectSettlement_ok (root : Hash) (poolPayouts : List Nat)
    (run : w.adminCorrectSettlement m sender root poolPayouts = .ok next) :
    ∃ mod incidentId,
      (root = Hash.zero ∧ Voided m w next mod incidentId) ∨
        ∃ deadline, Committed m w next mod incidentId root poolPayouts deadline := by
  unfold World.adminCorrectSettlement at run
  obtain ⟨_, -, run⟩ := (bind_ok_iff _ _ _).mp run
  obtain ⟨_, -, run⟩ := (bind_ok_iff _ _ _).mp run
  obtain ⟨_, registered, run⟩ := (bind_ok_iff _ _ _).mp run
  obtain ⟨mod, present, run⟩ := (bind_ok_iff _ _ _).mp run
  obtain ⟨_, notZero, run⟩ := (bind_ok_iff _ _ _).mp run
  obtain ⟨_, hadRoot, run⟩ := (bind_ok_iff _ _ _).mp run
  obtain ⟨_, inTime, run⟩ := (bind_ok_iff _ _ _).mp run
  have deployed := (getModule_ok_iff mod).mp present
  have isRegistered : w.registry.defiInsurance = m :=
    not_not.mp ((revertIf_ok_iff _ _ _).mp registered)
  have before := Nat.le_of_not_lt ((revertIf_ok_iff _ _ _).mp inTime)
  refine ⟨mod, mod.activeIncidentId w.now, ?_⟩
  rcases (ite_ok_iff _ _ _ _).mp run with ⟨void, run⟩ | ⟨rootNotZero, run⟩
  · obtain ⟨_, -, result⟩ := (bind_ok_iff _ _ _).mp run
    subst void
    exact Or.inl ⟨rfl, deployed, rfl, (revertIf_ok_iff _ _ _).mp notZero, isRegistered,
      (revertIf_ok_iff _ _ _).mp hadRoot, before, ((pure_ok_iff _ _).mp result).symm⟩
  · obtain ⟨stored, committedRun, result⟩ := (bind_ok_iff _ _ _).mp run
    obtain ⟨lengths, caps, deadline, after, deadlineEq, same, storedAfter, settings⟩ :=
      commitRoot_ok mod _ root poolPayouts committedRun
    exact Or.inr ⟨deadline, deployed, rfl, (revertIf_ok_iff _ _ _).mp notZero, isRegistered,
      rootNotZero, Or.inr ⟨(revertIf_ok_iff _ _ _).mp hadRoot, before⟩, lengths, caps, deadlineEq,
      ⟨stored, after, _, same, storedAfter, ((pure_ok_iff _ _).mp result).symm, Or.inr rfl⟩,
      after, by rw [← (pure_ok_iff _ _).mp result]; exact storedAfter.modules, settings⟩

end Committing

end Usd8Core.Insurance
