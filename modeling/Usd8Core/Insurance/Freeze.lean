import Usd8Core.Insurance.Draws

/-!
# The freeze

While an incident is active no call changes what its settlement is computed from:
the Registry's settings, the module's settings, the incident's own snapshot, and
the assets of the pools beyond what they pay on claims.
-/

set_option autoImplicit false

namespace Usd8Core.Insurance

open Usd8Core.Lib.ByteWords
open Usd8Core.Lib.CheckedCall
open Usd8Core.Lib.TraceRun
open Usd8Core.Chain
open Usd8Core.Pool

/-! ## Pools -/

/-- The assets of a pool fall by what it logs as paid on claims, and by nothing else. -/
def OnlyPaysClaims (tx next : PoolTx) : Prop :=
  next.pool.accountedAssets + (next.events.map claimPaidAmount).sum =
    tx.pool.accountedAssets + (tx.events.map claimPaidAmount).sum

section Pools

variable {env : PoolEnv} {tx next : PoolTx}

theorem OnlyPaysClaims.ofSame (accounted : next.pool.accountedAssets = tx.pool.accountedAssets)
    (events : ∃ later, next.events = tx.events ++ later ∧ (later.map claimPaidAmount).sum = 0) :
    OnlyPaysClaims tx next := by
  obtain ⟨later, eventsEq, unpaid⟩ := events
  rw [OnlyPaysClaims, accounted, eventsEq, List.map_append, List.sum_append, unpaid, Nat.add_zero]

theorem deposited_onlyPaysClaims {receiver : Address} {assets shares : Nat} (none : assets = 0)
    (deposited : Deposited env tx next receiver assets shares) : OnlyPaysClaims tx next := by
  obtain ⟨pool, minted, poolEq⟩ := deposited.minted
  refine .ofSame ?_ ⟨[], by rw [deposited.events, List.append_nil], rfl⟩
  rw [poolEq, none]
  exact (update_sameBooks _ _ _ _ _ _ _ minted).accounted

/-- A frozen pool accepts no assets. -/
theorem deposit_frozen (assets : Nat) (receiver : Address)
    (frozen : env.payoutIncidentActive = true)
    (run : PoolTx.deposit env tx assets receiver = .ok next) : OnlyPaysClaims tx next := by
  obtain ⟨shares, deposited⟩ := deposit_ok env tx next assets receiver run
  refine deposited_onlyPaysClaims ?_ deposited
  simp only [PoolTx.deposit, SingleAssetCoverPool.maxDeposit, frozen, or_true, if_true,
    bind_ok_iff, pure_ok_iff, revertIf_ok_iff] at run
  obtain ⟨_, -, limit, rfl, _, within, -⟩ := run
  omega

theorem mint_frozen (shares : Nat) (receiver : Address)
    (frozen : env.payoutIncidentActive = true)
    (run : PoolTx.mint env tx shares receiver = .ok next) : OnlyPaysClaims tx next := by
  simp only [PoolTx.mint, SingleAssetCoverPool.maxMint, frozen, or_true, if_true,
    bind_ok_iff, pure_ok_iff, revertIf_ok_iff] at run
  obtain ⟨_, -, limit, rfl, _, within, assets, preview, run⟩ := run
  have noShares : shares = 0 := by omega
  subst noShares
  refine deposited_onlyPaysClaims ?_
    (depositShares_ok env tx next receiver assets 0 (Or.inr preview) run)
  simp only [SingleAssetCoverPool.previewMint, bind_ok_iff, mulDivUp_ok_iff] at preview
  obtain ⟨total, -, supply, -, -, -, assetsEq⟩ := preview
  simpa using assetsEq

theorem requested_frozen (settled : PoolTx) (shares exitEpoch : Nat)
    (frozen : env.payoutIncidentActive = true)
    (requested : Requested env tx settled next shares exitEpoch) : OnlyPaysClaims tx next := by
  obtain ⟨pool, enqueued, nextEq⟩ := requested.enqueued
  obtain ⟨synced, userSynced, global, user, moved⟩ :=
    enqueueRedeem_ok env settled.pool pool shares exitEpoch enqueued
  obtain ⟨acc, syncedEq⟩ := checkpointGlobalRewards_accumulator _ synced env.self env.now global
  obtain ⟨userAcc, userEq⟩ :=
    checkpointUserRewards_accumulator synced userSynced env.self env.now env.sender user
  have kept := (erc20Update_sameBooks _ pool env.self env.sender env.self shares moved).accounted
  subst nextEq userEq syncedEq
  rcases requested.first with ⟨notFrozen, -⟩ | same
  · simp [frozen] at notFrozen
  · subst same
    exact .ofSame kept ⟨_, rfl, rfl⟩

theorem completed_frozen (settled : PoolTx) (receiver : Address) (assets : Nat)
    (frozen : env.payoutIncidentActive = true)
    (completed : Completed env tx settled next receiver assets) : OnlyPaysClaims tx next := by
  obtain ⟨shares, events⟩ := completed.events
  rcases completed.first with ⟨notFrozen, -⟩ | same
  · simp [frozen] at notFrozen
  · subst same
    exact .ofSame (by rw [completed.pool]) ⟨_, events, rfl⟩

theorem rewardClaimed_onlyPaysClaims (synced : SingleAssetCoverPool)
    (claimed : RewardClaimed env tx next synced) : OnlyPaysClaims tx next := by
  obtain ⟨⟨global, globalRun, userRun⟩, paid⟩ := claimed
  obtain ⟨first, globalEq⟩ :=
    checkpointGlobalRewards_accumulator tx.pool global env.self env.now globalRun
  obtain ⟨second, syncedEq⟩ :=
    checkpointUserRewards_accumulator global synced env.self env.now env.sender userRun
  subst globalEq syncedEq
  rcases paid with ⟨-, nextEq⟩ | ⟨-, -, -, poolEq, events⟩
  · subst nextEq
    exact .ofSame rfl ⟨[], (List.append_nil _).symm, rfl⟩
  · exact .ofSame (by rw [poolEq]; rfl) ⟨_, events, rfl⟩

theorem profitReceived_onlyPaysClaims (amount : Nat) (synced : SingleAssetCoverPool)
    (newDuration newRate : Nat)
    (profit : ProfitReceived env tx next amount synced newDuration newRate) :
    OnlyPaysClaims tx next := by
  obtain ⟨acc, syncedEq⟩ :=
    checkpointGlobalRewards_accumulator _ synced env.self env.now profit.checkpointed
  obtain ⟨finish, events⟩ := profit.events
  have poolEq := profit.pool
  subst syncedEq
  exact .ofSame (by rw [poolEq]; rfl) ⟨_, events, rfl⟩

theorem claimPaid_onlyPaysClaims (recipient : Address) (amount : Nat)
    (paid : ClaimPaid env tx next recipient amount) : OnlyPaysClaims tx next := by
  rcases paid.paid with ⟨-, nextEq⟩ | ⟨-, enough, -, poolEq, events⟩
  · subst nextEq
    exact .ofSame rfl ⟨[], (List.append_nil _).symm, rfl⟩
  · rw [OnlyPaysClaims, poolEq, events, List.map_append, List.sum_append]
    simp only [List.map_cons, List.map_nil, List.sum_cons, List.sum_nil, claimPaidAmount]
    omega

/-- Every call of a frozen pool. -/
theorem exec_frozen (call : PoolCall) (frozen : env.payoutIncidentActive = true)
    (run : PoolTx.exec env tx call = .ok next) : OnlyPaysClaims tx next := by
  unfold PoolTx.exec at run
  obtain ⟨_, -, run⟩ := (bind_ok_iff _ _ _).mp run
  cases call with
  | deposit assets receiver => exact deposit_frozen assets receiver frozen run
  | mint shares receiver => exact mint_frozen shares receiver frozen run
  | transfer recipient value =>
      obtain ⟨-, pool, updated, nextEq⟩ := transfer_ok env tx next recipient value run
      subst nextEq
      exact .ofSame (update_sameBooks _ _ _ _ _ _ _ updated).accounted
        ⟨[], (List.append_nil _).symm, rfl⟩
  | requestRedeem shares =>
      obtain ⟨settled, exitEpoch, requested⟩ := requestRedeem_ok env tx next shares run
      exact requested_frozen settled shares exitEpoch frozen requested
  | settleMaturedExitEpochs maxEpochs =>
      have notFrozen := (settleMaturedExitEpochs_ok env tx next maxEpochs run).1
      simp [frozen] at notFrozen
  | completeRedeem receiver =>
      obtain ⟨settled, assets, completed⟩ := completeRedeem_ok env tx next receiver run
      exact completed_frozen settled receiver assets frozen completed
  | claimReward =>
      obtain ⟨synced, claimed⟩ := claimReward_ok env tx next run
      exact rewardClaimed_onlyPaysClaims synced claimed
  | receiveProfitDistribution amount =>
      obtain ⟨synced, newDuration, newRate, profit⟩ :=
        receiveProfitDistribution_ok env tx next amount run
      exact profitReceived_onlyPaysClaims amount synced newDuration newRate profit
  | payClaim recipient amount =>
      exact claimPaid_onlyPaysClaims recipient amount
        (payClaim_ok env tx next recipient amount run)
  | setRewardsDuration newDuration =>
      have nextEq := setRewardsDuration_ok env tx next newDuration run
      subst nextEq
      exact .ofSame rfl ⟨[], (List.append_nil _).symm, rfl⟩
  | setDepositCap newCap =>
      have nextEq := setDepositCap_ok env tx next newCap run
      subst nextEq
      exact .ofSame rfl ⟨[], (List.append_nil _).symm, rfl⟩
  | sweepToken token recipient =>
      obtain ⟨-, amount, -, -, poolEq, events⟩ := sweepToken_ok env tx next token recipient run
      exact .ofSame (by rw [poolEq]) ⟨_, events, rfl⟩

end Pools

/-- Between two worlds `totalAssets` of the pool at `p` fell by what it paid on claims. -/
def TotalsKept (p : Address) (w next : World) : Prop :=
  ∀ pool, w.pools p = some pool → ∃ after, next.pools p = some after ∧
    after.totalAssets + claimsPaid next p = pool.totalAssets + claimsPaid w p

section Totals

variable {platform : Platform} {m p sender : Address} {w next : World} {mod : DefiInsurance}

theorem TotalsKept.ofSame (pools : next.pools p = w.pools p)
    (paid : claimsPaid next p = claimsPaid w p) : TotalsKept p w next := by
  intro pool present
  exact ⟨pool, pools.trans present, by rw [paid]⟩

theorem TotalsKept.trans {middle : World} (first : TotalsKept p w middle)
    (second : TotalsKept p middle next) : TotalsKept p w next := by
  intro pool present
  obtain ⟨between, presentBetween, total⟩ := first pool present
  obtain ⟨after, presentAfter, totalAfter⟩ := second between presentBetween
  exact ⟨after, presentAfter, totalAfter.trans total⟩

theorem callPool_totals (other : Address) (call : PoolCall)
    (frozen : w.payoutIncidentActive = true) (run : w.callPool other sender call = .ok next) :
    TotalsKept p w next := by
  obtain ⟨pool, tx, present, executed, nextEq⟩ := callPool_ok sender call run
  have kept := exec_frozen call frozen executed
  by_cases same : p = other
  · subst same
    intro before presentBefore
    cases present.symm.trans presentBefore
    refine ⟨tx.pool, ?_, ?_⟩
    · rw [nextEq, emitAll_eq]
      exact Function.update_self ..
    · have paidBefore : claimsPaid ({ w with
          pools := Function.update w.pools p (some tx.pool), erc20 := tx.erc20 } : World) p =
          claimsPaid w p := rfl
      rw [nextEq, claimsPaid_emitAll, if_pos rfl, paidBefore]
      have total : tx.pool.accountedAssets + (tx.events.map claimPaidAmount).sum =
          pool.accountedAssets + 0 := kept
      unfold SingleAssetCoverPool.totalAssets
      omega
  · obtain ⟨-, -, -, -, otherPools⟩ := callPool_frame sender call run
    refine .ofSame (otherPools p same) ?_
    rw [nextEq, claimsPaid_emitAll, if_neg (Ne.symm same)]
    rfl

/-- Freezing comes from the registered module. -/
theorem frozen_active (frozen : w.payoutIncidentActive = true)
    (registered : w.registry.defiInsurance = m) (present : w.modules m = some mod) :
    mod.activeIncidentId w.now ≠ 0 := by
  unfold World.payoutIncidentActive at frozen
  rw [registered, present] at frozen
  split at frozen
  · cases frozen
  · simpa using frozen

theorem Stored.totals {after : DefiInsurance} (stored : Stored m w next after) :
    TotalsKept p w next := by
  rcases stored with rfl | ⟨token, rfl⟩
  · exact .ofSame rfl rfl
  · exact .ofSame rfl (claimsPaid_emitOwn (w := w.setModule m after) p _ trivial)

theorem Finalized.totals {claimId : Nat} {acceptPayout : Bool} {row : PayoutRow}
    {proof : List Hash}
    (done : Finalized platform m sender w next mod claimId acceptPayout row proof) :
    TotalsKept p w next := by
  obtain ⟨released, paid, budget, event, release, -, -, drawn, nextEq, eventEq⟩ := done.outcome
  obtain ⟨_, _, _, erc20, erc1155, -, -, -, -, releasedEq⟩ := release.outcome
  have own : ModuleEvent event := by
    rcases eventEq with eventEq | ⟨eligible, eventEq⟩
    · rw [eventEq]
      trivial
    · rw [eventEq]
      trivial
  have toReleased : TotalsKept p w released := by
    rw [releasedEq]
    exact .ofSame rfl rfl
  have toPaid : TotalsKept p released paid := drawn.totals p
  have toNext : TotalsKept p paid next := by
    rw [nextEq]
    exact .ofSame rfl (claimsPaid_emitOwn (w := paid.setModule m _) p event own)
  exact (toReleased.trans toPaid).trans toNext

theorem Committed.totals {incidentId deadline : Nat} {root : Hash} {poolPayouts : List Nat}
    (done : Committed m w next mod incidentId root poolPayouts deadline) : TotalsKept p w next := by
  obtain ⟨stored, after, event, -, written, nextEq, eventEq⟩ := done.outcome
  have own : ModuleEvent event := by
    rcases eventEq with ⟨teePcrHash, eventEq⟩ | eventEq
    · rw [eventEq]
      trivial
    · rw [eventEq]
      trivial
  have toStored : TotalsKept p w stored := written.totals
  have toNext : TotalsKept p stored next := by
    rw [nextEq]
    exact .ofSame rfl (claimsPaid_emitOwn p event own)
  exact toStored.trans toNext

/-- A module call during an incident pays claims at most. -/
theorem callModule_totals (call : ModuleCall) (frozen : w.payoutIncidentActive = true)
    (run : w.callModule platform m sender call = .ok next) : TotalsKept p w next := by
  cases callModule_cases call run with
  | configured _ quiet noCommit noSettle done =>
      obtain ⟨mod, after, -, stored, -⟩ := done.outcome
      exact stored.totals
  | swept token recipient amount done =>
      obtain ⟨erc20, -, nextEq⟩ := done.outcome
      rw [nextEq]
      exact .ofSame rfl (claimsPaid_emitOwn (w := { w with erc20 := erc20 }) p _ trivial)
  | opened token referenceBlock claimDeadline mod done =>
      exact absurd done.idle (frozen_active frozen done.registered done.present)
  | openedAndFiled token amount scoreToSpend boosterAmount referenceBlock signature middle opening
      filing claimDeadline escrow scoreFits opened done =>
      exact absurd opened.idle (frozen_active frozen opened.registered opened.present)
  | filed token amount scoreToSpend boosterAmount referenceBlock signature joining incidentId
      escrow scoreFits joinable done =>
      obtain ⟨_, pulled, bonded, erc1155, -, -, -, -, nextEq⟩ := done.outcome
      rw [nextEq]
      exact .ofSame rfl (claimsPaid_emitOwn (w := World.setModule _ m _) p _ trivial)
  | cancelled cancelling incidentId claimId done =>
      obtain ⟨base, erc20, erc1155, -, -, nextEq⟩ := done.outcome
      rw [nextEq]
      exact .ofSame rfl (claimsPaid_emitOwn (w := World.setModule _ m _) p _ trivial)
  | settled root poolPayouts signature settling incidentId deadline done => exact done.totals
  | corrected root poolPayouts correcting incidentId deadline done => exact done.totals
  | voided poolPayouts voiding incidentId done =>
      rw [done.outcome]
      exact .ofSame rfl (claimsPaid_emitOwn (w := World.setModule _ m _) p _ trivial)
  | recovered claimId row proof recovering done =>
      obtain ⟨erc20, erc1155, -, nextEq⟩ := done.outcome
      rw [nextEq]
      exact .ofSame rfl (claimsPaid_emitOwn (w := World.setModule _ m _) p _ trivial)
  | finalized claimId acceptPayout row proof finalizing done => exact done.totals

theorem step_totals {tx : Tx} (frozen : w.payoutIncidentActive = true)
    (ran : step platform w tx = .ok next) : TotalsKept p w next := by
  cases step_cases ran with
  | registry sender call external run =>
      obtain ⟨registry, -, nextEq⟩ := callRegistry_ok call run
      rw [nextEq]
      exact .ofSame rfl rfl
  | module m sender call external run => exact callModule_totals call frozen run
  | pool other sender call external run => exact callPool_totals other call frozen run
  | tokens _ move erc20 erc1155 erc20Kept erc1155Kept nextEq =>
      rw [nextEq]
      exact .ofSame rfl rfl
  | moduleDeployed m run =>
      obtain ⟨-, nextEq⟩ := deployModule_ok run
      rw [nextEq]
      exact .ofSame rfl rfl
  | poolDeployed other asset run =>
      obtain ⟨external, -, -, nextEq⟩ := deployPool_ok other asset run
      intro pool present
      have differ : p ≠ other := by
        rintro rfl
        have absent := (Deployment.notExternal external).2.2
        rw [present] at absent
        cases absent
      refine ⟨pool, ?_, by rw [nextEq]; rfl⟩
      rw [nextEq]
      exact (Function.update_of_ne differ ..).trans present
  | mined block later higher nextEq =>
      rw [nextEq]
      exact .ofSame rfl rfl

end Totals

/-! ## Settings -/

/-- A call that commits a root. -/
def CommitsRoot (call : ModuleCall) : Prop :=
  ∃ root poolPayouts, root ≠ Hash.zero ∧
    ((∃ signature, call = .settleIncident root poolPayouts signature) ∨
      call = .adminCorrectSettlement root poolPayouts)

/-- What a settlement is computed from, beside the pools' assets. -/
structure FrozenInputs where
  config : SettlementConfig
  settlementParams : SettlementParams
  isTeeSigner : Address → Bool
  incident : IncidentSnapshot

def frozenInputs (w : World) (m : Address) (id : Nat) : Option FrozenInputs :=
  (w.modules m).map fun mod => ⟨w.registry.settlementConfig, mod.settlementParams,
    mod.isTeeSigner, snapshot (mod.incidents id)⟩

/-- The recipe of the token an incident is about. -/
def claimedRecipe (w : World) (m : Address) (id : Nat) : Option InsuredToken :=
  (w.modules m).map fun mod => mod.insuredTokens (mod.incidents id).insuredToken

section Settings

variable {platform : Platform} {m sender : Address} {w next : World} {mod : DefiInsurance}
  {id : Nat}

/-- During an incident a call keeps the module's settings, but that a commit delists
the claimed token. -/
theorem callModule_settings (call : ModuleCall) (present : w.modules m = some mod)
    (active : mod.activeIncidentId w.now ≠ 0)
    (run : w.callModule platform m sender call = .ok next) :
    ∃ after, next.modules m = some after ∧ (SettingsFrozen w.now mod after ∨
      (CommitsRoot call ∧ SettingsDelisted mod after
        (mod.incidents (mod.activeIncidentId w.now)).insuredToken)) := by
  cases callModule_cases call run with
  | configured _ quiet noCommit noSettle done =>
      obtain ⟨found, after, foundPresent, stored, frozen⟩ := done.settings
      cases present.symm.trans foundPresent
      exact ⟨after, stored, Or.inl frozen⟩
  | swept token recipient amount done =>
      obtain ⟨erc20, -, nextEq⟩ := done.outcome
      exact ⟨mod, by rw [nextEq]; exact present, Or.inl ⟨fun _ => rfl, fun _ => rfl,
        fun _ _ _ => rfl⟩⟩
  | opened token referenceBlock claimDeadline opening done =>
      cases present.symm.trans done.present
      exact absurd done.idle active
  | openedAndFiled token amount scoreToSpend boosterAmount referenceBlock signature middle opening
      filing claimDeadline escrow scoreFits opened done =>
      cases present.symm.trans opened.present
      exact absurd opened.idle active
  | filed token amount scoreToSpend boosterAmount referenceBlock signature joining incidentId
      escrow scoreFits joinable done =>
      cases present.symm.trans done.present
      obtain ⟨_, pulled, bonded, erc1155, -, -, -, -, nextEq⟩ := done.outcome
      rw [nextEq]
      exact ⟨_, setModule_self _, Or.inl ⟨fun _ => rfl, fun _ => rfl, fun _ _ _ => rfl⟩⟩
  | cancelled cancelling incidentId claimId done =>
      cases present.symm.trans done.present
      obtain ⟨base, erc20, erc1155, baseEq, -, nextEq⟩ := done.outcome
      subst baseEq
      rw [nextEq]
      exact ⟨_, setModule_self _, Or.inl ⟨fun _ => rfl, fun _ => rfl, fun _ _ _ => rfl⟩⟩
  | settled root poolPayouts signature settling incidentId deadline done =>
      cases present.symm.trans done.present
      obtain ⟨after, stored, delisted⟩ := done.settings
      refine ⟨after, stored, Or.inr ⟨⟨root, poolPayouts, done.rootNotZero, Or.inl ⟨signature, rfl⟩⟩,
        ?_⟩⟩
      rw [done.active]
      exact delisted
  | corrected root poolPayouts correcting incidentId deadline done =>
      cases present.symm.trans done.present
      obtain ⟨after, stored, delisted⟩ := done.settings
      refine ⟨after, stored, Or.inr ⟨⟨root, poolPayouts, done.rootNotZero, Or.inr rfl⟩, ?_⟩⟩
      rw [done.active]
      exact delisted
  | voided poolPayouts voiding incidentId done =>
      cases present.symm.trans done.present
      rw [done.outcome]
      exact ⟨_, setModule_self _, Or.inl ⟨fun _ => rfl, fun _ => rfl, fun _ _ _ => rfl⟩⟩
  | recovered claimId row proof recovering done =>
      cases present.symm.trans done.present
      obtain ⟨erc20, erc1155, -, nextEq⟩ := done.outcome
      rw [nextEq]
      exact ⟨_, setModule_self _, Or.inl ⟨fun _ => rfl, fun _ => rfl, fun _ _ _ => rfl⟩⟩
  | finalized claimId acceptPayout row proof finalizing done =>
      cases present.symm.trans done.present
      obtain ⟨released, paid, budget, event, -, -, -, -, nextEq, -⟩ := done.outcome
      rw [nextEq]
      exact ⟨_, setModule_self _, Or.inl ⟨fun _ => rfl, fun _ => rfl, fun _ _ _ => rfl⟩⟩

/-- Spending score is no setting. -/
theorem settlementConfig_scored {registry after : Registry}
    (scored : after = { registry with scoreSpent := after.scoreSpent }) :
    after.settlementConfig = registry.settlementConfig := by
  rw [scored]
  rfl

theorem RegistryMoved.settlementConfig (frozen : w.payoutIncidentActive = true)
    (moved : RegistryMoved w next) :
    next.registry.settlementConfig = w.registry.settlementConfig := by
  cases moved with
  | scored same => exact settlementConfig_scored same
  | called sender call run => exact registry_exec_frozen call frozen run

/-- A step from an active incident keeps its inputs. -/
theorem step_frozen {tx : Tx} (reachable : Reachable platform w) (active : IsActive w m id)
    (ran : step platform w tx = .ok next) : frozenInputs next m id = frozenInputs w m id := by
  have deployment := reachable_deployment reachable
  obtain ⟨registered, notZero, mod, present, activeId⟩ := active
  have isActive : mod.activeIncidentId w.now ≠ 0 := by rw [activeId]; exact notZero
  have frozen : w.payoutIncidentActive = true := payoutIncidentActive_of_isActive
    (deployment.moduleNotZero m (by rw [present]; rfl)) ⟨registered, notZero, mod, present, activeId⟩
  have opened := active_opened w.now isActive
  obtain ⟨after, presentAfter, -, fixed, -⟩ :=
    step_snapshot deployment present (show id < mod.nextIncidentId by omega) ran
  have registryKept : next.registry.settlementConfig = w.registry.settlementConfig := by
    cases step_moduleView (m := m) deployment ran with
    | bystander _ notCalled same richer registry later => exact registry.settlementConfig frozen
    | deployed fresh nextEq => rw [nextEq]; rfl
    | acted sender call external run =>
        exact settlementConfig_scored (effects_frame (callModule_effects call run)).registry
  have settingsKept : after.settlementParams = mod.settlementParams ∧
      after.isTeeSigner = mod.isTeeSigner := by
    cases step_moduleView (m := m) deployment ran with
    | bystander _ notCalled same richer registry later =>
        cases presentAfter.symm.trans (same.trans present)
        exact ⟨rfl, rfl⟩
    | deployed fresh nextEq =>
        rw [present] at fresh
        cases fresh
    | acted sender call external run =>
        obtain ⟨stored, storedPresent, kept | ⟨-, delisted⟩⟩ :=
          callModule_settings call present isActive run
        · cases presentAfter.symm.trans storedPresent
          exact ⟨kept.params isActive, kept.signers isActive⟩
        · cases presentAfter.symm.trans storedPresent
          exact ⟨delisted.params, delisted.signers⟩
  unfold frozenInputs
  rw [present, presentAfter, Option.map_some, Option.map_some, registryKept, settingsKept.1,
    settingsKept.2, fixed]

/-- Before a commit a step keeps the recipe of the claimed token. -/
theorem step_claimedRecipe {t : Transition World Tx} {recipe : InsuredToken}
    (reachable : Reachable platform t.before) (active : IsActive t.before m id)
    (listed : claimedRecipe t.before m id = some recipe) (covered : recipe.maxCoverageBps ≠ 0)
    (notCommits : ∀ root poolPayouts, ¬ Commits m id root poolPayouts t)
    (ran : step platform t.before t.action = .ok t.after) :
    claimedRecipe t.after m id = some recipe := by
  have deployment := reachable_deployment reachable
  obtain ⟨registered, notZero, mod, present, activeId⟩ := active
  have isActive : mod.activeIncidentId t.before.now ≠ 0 := by rw [activeId]; exact notZero
  have opened := active_opened t.before.now isActive
  obtain ⟨after, presentAfter, -, fixed, -⟩ :=
    step_snapshot deployment present (show id < mod.nextIncidentId by omega) ran
  have sameToken : (after.incidents id).insuredToken = (mod.incidents id).insuredToken :=
    congrArg IncidentSnapshot.insuredToken fixed
  have recipeEq : mod.insuredTokens (mod.incidents id).insuredToken = recipe := by
    rw [claimedRecipe, present, Option.map_some] at listed
    exact Option.some.inj listed
  rw [claimedRecipe, presentAfter, Option.map_some, sameToken]
  congr 1
  generalize actionEq : t.action = tx at ran
  cases step_moduleView (m := m) deployment ran with
  | bystander _ notCalled same richer registry later =>
      cases presentAfter.symm.trans (same.trans present)
      exact recipeEq
  | deployed fresh nextEq =>
      rw [present] at fresh
      cases fresh
  | acted sender call external run =>
      obtain ⟨stored, storedPresent, kept | ⟨⟨root, poolPayouts, rootNotZero, callEq⟩, -⟩⟩ :=
        callModule_settings call present isActive run
      · cases presentAfter.symm.trans storedPresent
        rw [kept.tokens isActive _ (by rw [recipeEq]; exact covered)]
        exact recipeEq
      · refine absurd ⟨rootNotZero, sender, mod, present, activeId, ?_⟩ (notCommits root poolPayouts)
        rcases callEq with ⟨signature, callEq⟩ | callEq
        · exact Or.inl ⟨signature, by rw [actionEq, callEq]⟩
        · exact Or.inr (by rw [actionEq, callEq])

end Settings

/-! ## The whole incident -/

/-- The step records the incident under `id`. -/
def Opens (m : Address) (id : Nat) (t : Transition World Tx) : Prop :=
  ∃ mod after, t.before.modules m = some mod ∧ t.after.modules m = some after ∧
    mod.nextIncidentId = id ∧ id < after.nextIncidentId

section Incident

variable {platform : Platform} {m : Address} {w : World} {id : Nat}
  {early during : List (Transition World Tx)} {opening : Transition World Tx}

/-- An incident is opened on a listed token. -/
theorem Opens.covered (deployment : Deployment opening.before) (opens : Opens m id opening)
    (ran : step platform opening.before opening.action = .ok opening.after) :
    ∃ recipe, claimedRecipe opening.after m id = some recipe ∧ recipe.maxCoverageBps ≠ 0 := by
  obtain ⟨mod, after, present, presentAfter, idEq, grown⟩ := opens
  generalize opening.action = tx at ran
  cases step_moduleView (m := m) deployment ran with
  | bystander _ notCalled same richer registry later =>
      cases presentAfter.symm.trans (same.trans present)
      omega
  | deployed fresh nextEq =>
      rw [present] at fresh
      cases fresh
  | acted sender call external run =>
      obtain ⟨stored, storedPresent, progress⟩ := callModule_progress call present run
      cases presentAfter.symm.trans storedPresent
      obtain ⟨token, referenceBlock, fixed, -, covered⟩ := progress.fresh (by omega)
      have tokenEq : (after.incidents id).insuredToken = token := by
        rw [← idEq]
        exact congrArg IncidentSnapshot.insuredToken fixed
      refine ⟨after.insuredTokens token, ?_, covered⟩
      rw [claimedRecipe, presentAfter, Option.map_some, tokenEq]

theorem frozenInputs_run {next : World} {steps : List (Transition World Tx)}
    (reachable : Reachable platform w) (run : IsRun (step platform) w steps next)
    (active : ∀ t ∈ steps, IsActive t.before m id) :
    frozenInputs next m id = frozenInputs w m id := by
  induction run with
  | nil => rfl
  | snoc earlier middle tx final run last ih =>
      have atMiddle := ih fun t listed => active t (List.mem_append_left _ listed)
      have isActive := active ⟨middle, tx, final⟩ (by simp)
      exact (step_frozen (reachable.extend run) isActive last).trans atMiddle

theorem claimedRecipe_run {next : World} {steps : List (Transition World Tx)}
    {recipe : InsuredToken} (reachable : Reachable platform w)
    (listed : claimedRecipe w m id = some recipe) (covered : recipe.maxCoverageBps ≠ 0)
    (run : IsRun (step platform) w steps next) (active : ∀ t ∈ steps, IsActive t.before m id)
    (uncommitted : ∀ t ∈ steps, ∀ root poolPayouts, ¬ Commits m id root poolPayouts t) :
    claimedRecipe next m id = some recipe := by
  induction run with
  | nil => exact listed
  | snoc earlier middle tx final run last ih =>
      have atMiddle := ih (fun t member => active t (List.mem_append_left _ member))
        (fun t member => uncommitted t (List.mem_append_left _ member))
      exact step_claimedRecipe (t := ⟨middle, tx, final⟩) (reachable.extend run)
        (active ⟨middle, tx, final⟩ (by simp)) atMiddle covered
        (uncommitted ⟨middle, tx, final⟩ (by simp)) last

/-- From its opening to the end of its activity no call of anyone changes what the
incident's settlement is computed from; the recipe of the claimed token stays until a
root is committed; and the pools lose what they pay on claims, nothing else. -/
theorem settlement_inputs_frozen (run : SystemRun platform (early ++ opening :: during) w)
    (opens : Opens m id opening) (active : ∀ t ∈ during, IsActive t.before m id) :
    (∀ t ∈ during, frozenInputs t.after m id = frozenInputs opening.after m id) ∧
    (∀ before t later, during = before ++ t :: later →
      (∀ s ∈ before ++ [t], ∀ root poolPayouts, ¬ Commits m id root poolPayouts s) →
      claimedRecipe t.after m id = claimedRecipe opening.after m id) ∧
    ∀ t ∈ during, ∀ p pool, t.before.pools p = some pool →
      ∃ after, t.after.pools p = some after ∧
        after.totalAssets + claimsPaid t.after p = pool.totalAssets + claimsPaid t.before p := by
  obtain ⟨earlyRun, openingRan, duringRun⟩ := run.split_at
  have reachable : Reachable platform opening.after := earlyRun.reachable.step openingRan
  refine ⟨?_, ?_, ?_⟩
  · intro t inside
    obtain ⟨before, later, split⟩ := List.append_of_mem inside
    subst split
    obtain ⟨untilT, ran, -⟩ := duringRun.split_at
    have atT := frozenInputs_run reachable untilT fun s listed =>
      active s (List.mem_append_left _ listed)
    exact (step_frozen (reachable.extend untilT) (active t inside) ran).trans atT
  · rintro before t later split uncommitted
    subst split
    obtain ⟨untilT, ran, -⟩ := duringRun.split_at
    obtain ⟨recipe, openingRecipe, covered⟩ :=
      opens.covered (reachable_deployment earlyRun.reachable) openingRan
    have atT := claimedRecipe_run reachable openingRecipe covered untilT
      (fun s listed => active s (List.mem_append_left _ listed))
      (fun s listed => uncommitted s (List.mem_append_left _ listed))
    rw [openingRecipe]
    exact step_claimedRecipe (reachable.extend untilT) (active t (by simp)) atT covered
      (uncommitted t (by simp)) ran
  · intro t inside p
    obtain ⟨before, later, split⟩ := List.append_of_mem inside
    subst split
    obtain ⟨untilT, ran, -⟩ := duringRun.split_at
    have atT := reachable.extend untilT
    have isActive := active t inside
    obtain ⟨-, -, mod, present, -⟩ := isActive
    have moduleNotZero := (reachable_deployment atT).moduleNotZero m (by rw [present]; rfl)
    exact step_totals (payoutIncidentActive_of_isActive moduleNotZero (active t inside)) ran

/-- In the small deployment the inputs stay from the opening to alice's payout. -/
theorem smallDeployment_inputs_frozen :
    ∃ early opening during w,
      SystemRun SmallDeployment.platform (early ++ opening :: during) w ∧
      Opens SmallDeployment.module 1 opening ∧
      (∀ t ∈ during, IsActive t.before SmallDeployment.module 1) ∧ during.length = 6 ∧
      ∀ t ∈ during, frozenInputs t.after SmallDeployment.module 1 =
        frozenInputs opening.after SmallDeployment.module 1 := by
  have passed : endsIn (step SmallDeployment.platform) SmallDeployment.start
      (SmallDeployment.stake ++ SmallDeployment.claim ++ SmallDeployment.settle ++
        SmallDeployment.payout)
      (fun steps _ => match steps.drop 23 with
        | [] => false
        | opening :: during =>
          decide (during.length = 6) &&
          decide ((opening.before.modules SmallDeployment.module).map
            DefiInsurance.nextIncidentId = some 1) &&
          decide ((opening.after.modules SmallDeployment.module).map
            DefiInsurance.nextIncidentId = some 2) &&
          during.all fun t =>
            decide (t.before.registry.defiInsurance = SmallDeployment.module) &&
            decide ((t.before.modules SmallDeployment.module).map
              (fun mod => mod.activeIncidentId t.before.now) = some 1)) = true := by
    decide +kernel
  obtain ⟨steps, w, run, checked⟩ := endsIn_isRun _ _ passed
  have joined := List.take_append_drop 23 steps
  generalize steps.drop 23 = tail at checked joined
  cases tail with
  | nil => cases checked
  | cons opening during =>
      simp only [Bool.and_eq_true, decide_eq_true_eq, List.all_eq_true,
        Option.map_eq_some_iff] at checked
      obtain ⟨⟨⟨six, mod, present, firstId⟩, after, presentAfter, secondId⟩, isActive⟩ := checked
      have systemRun : SystemRun SmallDeployment.platform
          (steps.take 23 ++ opening :: during) w := by
        rw [joined]
        exact ⟨_, _, _, _, _, run⟩
      have opens : Opens SmallDeployment.module 1 opening :=
        ⟨mod, after, present, presentAfter, firstId, by omega⟩
      have active : ∀ t ∈ during, IsActive t.before SmallDeployment.module 1 := by
        intro t inside
        obtain ⟨registered, current, currentPresent, activeId⟩ := isActive t inside
        exact ⟨registered, by decide, current, currentPresent, activeId⟩
      exact ⟨steps.take 23, opening, during, w, systemRun, opens, active, six,
        (settlement_inputs_frozen systemRun opens active).1⟩

end Incident

end Usd8Core.Insurance
