import Usd8Core.Insurance.ModuleView

/-!
# The log of the chain

A log stands strictly after every earlier one.  To the claim set of a module only
`fileClaim` and `cancelClaim` add: whatever else a module call logs, it is never a
registration or a cancellation.
-/

set_option autoImplicit false

namespace Usd8Core.Insurance

open Usd8Core.Lib.ByteWords
open Usd8Core.Lib.CheckedCall
open Usd8Core.Chain
open Usd8Core.Pool

/-! ## Positions -/

/-- The position of a log is strictly before that of another. -/
def Precedes (first second : Log) : Prop :=
  first.blockNumber < second.blockNumber ∨
    (first.blockNumber = second.blockNumber ∧ first.logIndex < second.logIndex)

structure LogsOrdered (w : World) : Prop where
  mined : ∀ log ∈ w.logs, log.blockNumber ≤ w.block.number
  pairwise : w.logs.Pairwise Precedes

section Order

variable {platform : Platform} {m sender : Address} {w next : World}

theorem Precedes.trans {first second third : Log} (before : Precedes first second)
    (after : Precedes second third) : Precedes first third := by
  unfold Precedes at before after ⊢
  omega

/-- The index of the next log is above those of its block. -/
theorem LogsOrdered.beforeNext (ordered : LogsOrdered w) (emitter : Address) (event : Event)
    (log : Log) (member : log ∈ w.logs) :
    Precedes log ⟨emitter, w.block.number, w.nextLogIndex, event⟩ := by
  obtain ⟨mined, pairwise⟩ := ordered
  unfold World.nextLogIndex
  rcases List.eq_nil_or_concat w.logs with empty | ⟨earlier, last, split⟩
  · rw [empty] at member
    cases member
  · rw [List.concat_eq_append] at split
    rw [split] at member mined pairwise ⊢
    rw [List.getLast?_append_of_ne_nil _ (List.cons_ne_nil last []), List.getLast?_singleton]
    have lastMined := mined last (by simp)
    have lastBefore : Precedes last ⟨emitter, w.block.number,
        if last.blockNumber = w.block.number then last.logIndex + 1 else 0, event⟩ := by
      unfold Precedes
      split
      · exact Or.inr ⟨by assumption, Nat.lt_succ_self _⟩
      · exact Or.inl (by dsimp only; omega)
    rcases List.mem_append.mp member with old | isLast
    · have apart := (List.pairwise_append.mp pairwise).2.2 log old last (by simp)
      exact apart.trans lastBefore
    · rw [List.mem_singleton.mp isLast]
      exact lastBefore

theorem LogsOrdered.emit (ordered : LogsOrdered w) (emitter : Address) (event : Event) :
    LogsOrdered (w.emit emitter event) := by
  constructor
  · intro log member
    rcases List.mem_append.mp member with old | new
    · exact ordered.mined log old
    · rw [List.mem_singleton.mp new]
      exact le_rfl
  · refine List.pairwise_append.mpr ⟨ordered.pairwise, List.pairwise_singleton _ _, ?_⟩
    intro log member last isLast
    rw [List.mem_singleton.mp isLast]
    exact ordered.beforeNext emitter event log member

theorem LogsOrdered.emitAll (ordered : LogsOrdered w) (emitter : Address) (events : List Event) :
    LogsOrdered (w.emitAll emitter events) := by
  unfold World.emitAll
  induction events generalizing w with
  | nil => exact ordered
  | cons event rest ih => exact ih (ordered.emit emitter event)

theorem LogsOrdered.ofSame (ordered : LogsOrdered w) (logs : next.logs = w.logs)
    (later : w.block.number ≤ next.block.number) : LogsOrdered next := by
  refine ⟨?_, by rw [logs]; exact ordered.pairwise⟩
  intro log member
  rw [logs] at member
  exact (ordered.mined log member).trans later

theorem callPool_logsOrdered (p caller : Address) (call : PoolCall) (ordered : LogsOrdered w)
    (run : w.callPool p caller call = .ok next) : LogsOrdered next := by
  obtain ⟨pool, tx, -, -, nextEq⟩ := callPool_ok caller call run
  subst nextEq
  apply LogsOrdered.emitAll
  exact ordered.ofSame rfl le_rfl

theorem ModuleEffect.logsOrdered (ordered : LogsOrdered w)
    (effect : ModuleEffect platform m sender w next) : LogsOrdered next := by
  cases effect with
  | stored before after deployed => exact ordered.ofSame rfl le_rfl
  | emitted event own => exact ordered.emit m event
  | moved token payer recipient amount erc20 payerKnown run => exact ordered.ofSame rfl le_rfl
  | boosted erc1155 others => exact ordered.ofSame rfl le_rfl
  | called _ p call allowed run => exact callPool_logsOrdered p m call ordered run
  | scored account amount registry event run =>
      apply LogsOrdered.emit
      exact ordered.ofSame rfl le_rfl

theorem effects_logsOrdered (ordered : LogsOrdered w)
    (effects : ModuleEffects platform m sender w next) : LogsOrdered next := by
  induction effects with
  | refl => exact ordered
  | tail before last ih => exact last.logsOrdered ih

theorem step_logsOrdered {tx : Tx} (ordered : LogsOrdered w)
    (ran : step platform w tx = .ok next) : LogsOrdered next := by
  cases step_cases ran with
  | registry sender call external run =>
      unfold World.callRegistry at run
      obtain ⟨registry, -, result⟩ := (bind_ok_iff _ _ _).mp run
      cases (pure_ok_iff _ _).mp result
      exact ordered.ofSame rfl le_rfl
  | module m sender call external run =>
      exact effects_logsOrdered ordered (callModule_effects call run)
  | pool p sender call external run => exact callPool_logsOrdered p sender call ordered run
  | tokens _ move erc20 erc1155 erc20Kept erc1155Kept nextEq =>
      subst nextEq
      exact ordered.ofSame rfl le_rfl
  | moduleDeployed m run =>
      obtain ⟨-, nextEq⟩ := deployModule_ok run
      subst nextEq
      exact ordered.ofSame rfl le_rfl
  | poolDeployed p asset run =>
      obtain ⟨-, -, -, nextEq⟩ := deployPool_ok p asset run
      subst nextEq
      exact ordered.ofSame rfl le_rfl
  | mined block later higher nextEq =>
      subst nextEq
      exact ordered.ofSame rfl (Nat.le_of_lt higher)

theorem step_blockNumber {tx : Tx} (ran : step platform w tx = .ok next) :
    w.block.number ≤ next.block.number := by
  cases step_cases ran with
  | registry sender call external run =>
      unfold World.callRegistry at run
      obtain ⟨registry, -, result⟩ := (bind_ok_iff _ _ _).mp run
      cases (pure_ok_iff _ _).mp result
      exact le_rfl
  | module m sender call external run =>
      rw [(effects_frame (callModule_effects call run)).block]
  | pool p sender call external run => rw [(callPool_frame sender call run).1]
  | tokens _ move erc20 erc1155 erc20Kept erc1155Kept nextEq =>
      subst nextEq
      exact le_rfl
  | moduleDeployed m run =>
      obtain ⟨-, nextEq⟩ := deployModule_ok run
      subst nextEq
      exact le_rfl
  | poolDeployed p asset run =>
      obtain ⟨-, -, -, nextEq⟩ := deployPool_ok p asset run
      subst nextEq
      exact le_rfl
  | mined block later higher nextEq =>
      subst nextEq
      exact Nat.le_of_lt higher

theorem reachable_logsOrdered (reachable : Reachable platform w) : LogsOrdered w := by
  apply reachable.invariant LogsOrdered
  · intro block timelock admin erc20 erc1155
    exact ⟨by simp [World.genesis], List.Pairwise.nil⟩
  · intro w tx next ordered ran
    exact step_logsOrdered ordered ran

end Order

/-! ## The claim set of a module -/

/-- The two events that the rolling commitment of an incident covers. -/
def ClaimSetEvent : Event → Prop
  | .claimRegistered _ _ _ _ _ _ => True
  | .claimCancelled _ _ => True
  | _ => False

instance (event : Event) : Decidable (ClaimSetEvent event) := by
  cases event <;> unfold ClaimSetEvent <;> infer_instance

/-- The registrations and cancellations a module has logged, oldest first. -/
def claimLogs (w : World) (m : Address) : List Log :=
  w.logs.filter fun log => log.emitter = m ∧ ClaimSetEvent log.event

/-- Nothing was added to the claim set of the module. -/
structure Quiet (m : Address) (w next : World) : Prop where
  pools : next.pools m = w.pools m
  logs : claimLogs next m = claimLogs w m

section Quiet

variable {platform : Platform} {m : Address} {w next : World}

theorem claimLogs_emit (emitter : Address) (event : Event) :
    claimLogs (w.emit emitter event) m = claimLogs w m ++
      if emitter = m ∧ ClaimSetEvent event
      then [⟨emitter, w.block.number, w.nextLogIndex, event⟩] else [] := by
  unfold claimLogs World.emit
  rw [List.filter_append]
  congr 1
  by_cases counted : emitter = m ∧ ClaimSetEvent event <;> simp [counted]

theorem Quiet.refl : Quiet m w w := ⟨rfl, rfl⟩

theorem Quiet.trans {middle : World} (first : Quiet m w middle) (second : Quiet m middle next) :
    Quiet m w next :=
  ⟨second.pools.trans first.pools, second.logs.trans first.logs⟩

theorem Quiet.ofSame (pools : next.pools = w.pools) (logs : next.logs = w.logs) :
    Quiet m w next := ⟨by rw [pools], by unfold claimLogs; rw [logs]⟩

theorem quiet_emit (emitter : Address) (event : Event)
    (uncounted : ¬ (emitter = m ∧ ClaimSetEvent event)) : Quiet m w (w.emit emitter event) :=
  ⟨rfl, by rw [claimLogs_emit, if_neg uncounted, List.append_nil]⟩

theorem quiet_emitAll (emitter : Address) (events : List Event) (other : emitter ≠ m) :
    Quiet m w (w.emitAll emitter events) := by
  unfold World.emitAll
  induction events generalizing w with
  | nil => exact Quiet.refl
  | cons event rest ih =>
      exact (quiet_emit emitter event fun counted => other counted.1).trans ih

/-- A pool is never deployed at a module's address, so its logs are not the module's. -/
theorem callPool_quiet (p caller : Address) (call : PoolCall) (noPool : w.pools m = none)
    (run : w.callPool p caller call = .ok next) : Quiet m w next := by
  obtain ⟨pool, tx, present, -, nextEq⟩ := callPool_ok caller call run
  have other : p ≠ m := by
    rintro rfl
    rw [present] at noPool
    cases noPool
  have stored : Quiet m w { w with
      pools := Function.update w.pools p (some tx.pool), erc20 := tx.erc20 } :=
    ⟨Function.update_of_ne (Ne.symm other) .., rfl⟩
  rw [nextEq]
  exact stored.trans (quiet_emitAll p tx.events other)

theorem Stored.quiet {after : DefiInsurance} (stored : Stored m w next after) :
    Quiet m w next := by
  rcases stored with nextEq | ⟨token, nextEq⟩
  · subst nextEq
    exact Quiet.ofSame rfl rfl
  · subst nextEq
    have written : Quiet m w (w.setModule m after) := Quiet.ofSame rfl rfl
    exact written.trans (quiet_emit m (.insuredTokenRemoved token) fun counted => counted.2)

theorem settleListedPools_quiet (noPool : w.pools m = none)
    (run : w.settleListedPools m = .ok next) : Quiet m w next := by
  apply foldlM_preserves _ (Quiet m w) _ _ w next Quiet.refl run
  intro state p after quiet ran
  exact quiet.trans (callPool_quiet p m _ (quiet.pools.trans noPool) ran)

theorem payProtocolFee_quiet (incidentId : Nat) (pool feeReceiver : Address) (protocolFee : Nat)
    (noPool : w.pools m = none)
    (run : w.payProtocolFee m incidentId pool feeReceiver protocolFee = .ok next) :
    Quiet m w next := by
  unfold World.payProtocolFee at run
  rcases (ite_ok_iff _ _ _ _).mp run with ⟨-, run⟩ | ⟨-, result⟩
  · obtain ⟨paid, paidRun, result⟩ := (bind_ok_iff _ _ _).mp run
    cases (pure_ok_iff _ _).mp result
    exact (callPool_quiet pool m _ noPool paidRun).trans
      (quiet_emit m (.protocolFeePaid incidentId pool feeReceiver protocolFee)
        fun counted => counted.2)
  · cases (pure_ok_iff _ _).mp result
    exact Quiet.refl

theorem payClaimAmount_quiet (incidentId : Nat) (claimant feeReceiver : Address)
    (amounts : List Nat) (i : Nat) (noPool : w.pools m = none)
    (run : World.payClaimAmount m incidentId claimant feeReceiver amounts w i = .ok next) :
    Quiet m w next := by
  unfold World.payClaimAmount at run
  obtain ⟨amount, -, run⟩ := (bind_ok_iff _ _ _).mp run
  rcases (ite_ok_iff _ _ _ _).mp run with ⟨-, result⟩ | ⟨-, run⟩
  · cases (pure_ok_iff _ _).mp result
    exact Quiet.refl
  · obtain ⟨mod, -, run⟩ := (bind_ok_iff _ _ _).mp run
    obtain ⟨net, -, run⟩ := (bind_ok_iff _ _ _).mp run
    obtain ⟨gross, -, run⟩ := (bind_ok_iff _ _ _).mp run
    obtain ⟨remaining, -, run⟩ := (bind_ok_iff _ _ _).mp run
    obtain ⟨_, -, run⟩ := (bind_ok_iff _ _ _).mp run
    obtain ⟨pool, -, run⟩ := (bind_ok_iff _ _ _).mp run
    obtain ⟨paid, paidRun, run⟩ := (bind_ok_iff _ _ _).mp run
    obtain ⟨protocolFee, -, feeRun⟩ := (bind_ok_iff _ _ _).mp run
    have drawn := callPool_quiet (m := m) (w := w.setModule m _) pool m
      (.payClaim claimant amount) noPool paidRun
    have budgeted : Quiet m w paid := ⟨drawn.pools, drawn.logs⟩
    exact budgeted.trans (payProtocolFee_quiet incidentId pool feeReceiver protocolFee
      (budgeted.pools.trans noPool) feeRun)

theorem payAccepted_quiet (incidentId : Nat) (claimant : Address) (row : PayoutRow)
    (noPool : w.pools m = none)
    (run : w.payAccepted platform m incidentId claimant row = .ok next) : Quiet m w next := by
  unfold World.payAccepted at run
  obtain ⟨paid, paidRun, run⟩ := (bind_ok_iff _ _ _).mp run
  have drawn : Quiet m w paid := by
    unfold World.payClaimAmounts at paidRun
    obtain ⟨mod, -, paidRun⟩ := (bind_ok_iff _ _ _).mp paidRun
    apply foldlM_preserves _ (Quiet m w) _ _ w paid Quiet.refl paidRun
    intro state i after quiet ran
    exact quiet.trans (payClaimAmount_quiet incidentId claimant _ row.amounts i
      (quiet.pools.trans noPool) ran)
  unfold World.spendScore at run
  rcases (ite_ok_iff _ _ _ _).mp run with ⟨-, run⟩ | ⟨-, result⟩
  · obtain ⟨⟨registry, event⟩, recorded, result⟩ := (bind_ok_iff _ _ _).mp run
    cases (pure_ok_iff _ _).mp result
    obtain ⟨-, eventEq, -⟩ := recordScoreSpent_ok _ registry m claimant row.scoreSpent event
      recorded
    subst eventEq
    have spent : Quiet m paid (paid.emit m (.scoreSpent claimant row.scoreSpent incidentId)) :=
      quiet_emit m (.scoreSpent claimant row.scoreSpent incidentId) fun counted => counted.2
    have recordedScore : Quiet m (paid.emit m (.scoreSpent claimant row.scoreSpent incidentId))
        { paid.emit m (.scoreSpent claimant row.scoreSpent incidentId) with
          registry := registry } := Quiet.ofSame rfl rfl
    refine (drawn.trans spent).trans (recordedScore.trans (quiet_emit _ _ ?_))
    exact fun counted => counted.2
  · cases (pure_ok_iff _ _).mp result
    exact drawn

/-- Another module's call never speaks for this one. -/
theorem ModuleEffect.quietOther {caller sender : Address} (other : caller ≠ m)
    (noPool : w.pools m = none) (effect : ModuleEffect platform caller sender w next) :
    Quiet m w next := by
  cases effect with
  | stored before after deployed => exact Quiet.ofSame rfl rfl
  | emitted event own => exact quiet_emit caller event fun counted => other counted.1
  | moved token payer recipient amount erc20 payerKnown run => exact Quiet.ofSame rfl rfl
  | boosted erc1155 others => exact Quiet.ofSame rfl rfl
  | called _ p call allowed run => exact callPool_quiet p caller call noPool run
  | scored account amount registry event run =>
      obtain ⟨-, eventEq, -⟩ := recordScoreSpent_ok _ registry caller account amount event run
      subst eventEq
      have recorded : Quiet m w { w with registry := registry } := Quiet.ofSame rfl rfl
      exact recorded.trans (quiet_emit _ _ fun counted => counted.2)

theorem effects_quietOther {caller sender : Address} (other : caller ≠ m)
    (noPool : w.pools m = none) (effects : ModuleEffects platform caller sender w next) :
    Quiet m w next := by
  induction effects with
  | refl => exact Quiet.refl
  | tail before last ih => exact ih.trans (last.quietOther other (ih.pools.trans noPool))

/-- Only a call to the module adds to its claim set. -/
theorem step_claimLogs {tx : Tx} (noPool : w.pools m = none)
    (notCalled : ∀ sender call, tx ≠ .module m sender call)
    (ran : step platform w tx = .ok next) : claimLogs next m = claimLogs w m := by
  cases step_cases ran with
  | registry sender call external run =>
      unfold World.callRegistry at run
      obtain ⟨registry, -, result⟩ := (bind_ok_iff _ _ _).mp run
      cases (pure_ok_iff _ _).mp result
      rfl
  | module caller sender call external run =>
      have other : caller ≠ m := fun same => notCalled sender call (by rw [same])
      exact (effects_quietOther other noPool (callModule_effects call run)).logs
  | pool p sender call external run => exact (callPool_quiet p sender call noPool run).logs
  | tokens _ move erc20 erc1155 erc20Kept erc1155Kept nextEq =>
      subst nextEq
      rfl
  | moduleDeployed other run =>
      obtain ⟨-, nextEq⟩ := deployModule_ok run
      subst nextEq
      rfl
  | poolDeployed p asset run =>
      obtain ⟨-, -, -, nextEq⟩ := deployPool_ok p asset run
      subst nextEq
      rfl
  | mined block later higher nextEq =>
      subst nextEq
      rfl

/-- A contract that is there stays there. -/
theorem step_deployed {tx : Tx} (ran : step platform w tx = .ok next) :
    (next.modules m = none → w.modules m = none) ∧ (next.pools m = none → w.pools m = none) := by
  have kept (same : SameContracts w next) :
      (next.modules m = none → w.modules m = none) ∧
        (next.pools m = none → w.pools m = none) := by
    have modules := same.modules m
    have pools := same.pools m
    constructor
    · intro gone
      simpa [gone] using modules.symm
    · intro gone
      simpa [gone] using pools.symm
  cases step_cases ran with
  | registry sender call external run =>
      unfold World.callRegistry at run
      obtain ⟨registry, -, result⟩ := (bind_ok_iff _ _ _).mp run
      cases (pure_ok_iff _ _).mp result
      exact kept (.ofSame rfl rfl)
  | module caller sender call external run =>
      exact kept (effects_sameContracts (callModule_effects call run))
  | pool p sender call external run => exact kept (callPool_sameContracts p sender call run)
  | tokens _ move erc20 erc1155 erc20Kept erc1155Kept nextEq =>
      subst nextEq
      exact kept (.ofSame rfl rfl)
  | moduleDeployed other run =>
      obtain ⟨-, nextEq⟩ := deployModule_ok run
      subst nextEq
      refine ⟨?_, id⟩
      by_cases same : m = other
      · subst same
        intro gone
        rw [setModule_self] at gone
        cases gone
      · rw [setModule_other _ same]
        exact id
  | poolDeployed p asset run =>
      obtain ⟨-, -, -, nextEq⟩ := deployPool_ok p asset run
      subst nextEq
      refine ⟨id, ?_⟩
      dsimp only
      by_cases same : m = p
      · subst same
        rw [Function.update_self]
        intro gone
        cases gone
      · rw [Function.update_of_ne same]
        exact id
  | mined block later higher nextEq =>
      subst nextEq
      exact kept (.ofSame rfl rfl)

/-- An address without a contract has no claim set. -/
theorem reachable_undeployed (reachable : Reachable platform w) :
    w.modules m = none → w.pools m = none → claimLogs w m = [] := by
  apply reachable.invariant fun w => w.modules m = none → w.pools m = none → claimLogs w m = []
  · intro block timelock admin erc20 erc1155 _ _
    rfl
  · intro w tx next silent ran noModule noPool
    obtain ⟨modules, pools⟩ := step_deployed (m := m) ran
    rw [step_claimLogs (pools noPool) _ ran]
    · exact silent (modules noModule) (pools noPool)
    · rintro sender call rfl
      obtain ⟨_, -, run⟩ := (bind_ok_iff _ _ _).mp ran
      have deployed := callModule_deployed call run
      rw [modules noModule] at deployed
      cases deployed

end Quiet

end Usd8Core.Insurance
