import Usd8Core.Insurance.IncidentSteps

/-!
# The single paying incident

An incident has ended when its deadline has passed and either no claim is left or
the payout window has passed too.  Ended is for good, every incident but the last
one has ended, and a module comes back to the Registry only with all of them
ended.  So at most one incident of all modules can still pay.
-/

set_option autoImplicit false

namespace Usd8Core.Insurance

open Usd8Core.Lib.ByteWords
open Usd8Core.Lib.CheckedCall
open Usd8Core.Lib.TraceRun
open Usd8Core.Chain
open Usd8Core.Pool

/-- The complement of what `_activeIncidentId` tests on the last incident. -/
def Ended (mod : DefiInsurance) (id now : Nat) : Prop :=
  (mod.incidents id).phaseDeadline < now ∧ ((mod.incidents id).unresolvedClaims = 0 ∨
    (mod.incidents id).phaseDeadline + mod.incidentPhaseWindow id < now)

/-- The incident the whole system is in: the Registry's module reports it. -/
def IsActive (w : World) (m : Address) (id : Nat) : Prop :=
  w.registry.defiInsurance = m ∧ id ≠ 0 ∧
    ∃ mod, w.modules m = some mod ∧ mod.activeIncidentId w.now = id

/-- The incident was opened and its module reports it no more, or is out of the Registry. -/
def Retired (w : World) (m : Address) (id : Nat) : Prop :=
  ∃ mod, w.modules m = some mod ∧ id < mod.nextIncidentId ∧
    (Ended mod id w.now ∨ w.registry.defiInsurance ≠ m)

/-- Every incident before the last one has ended. -/
def EarlierEnded (mod : DefiInsurance) (now : Nat) : Prop :=
  ∀ id, 1 ≤ id → id + 1 < mod.nextIncidentId → Ended mod id now

section Activity

variable {platform : Platform} {m sender : Address} {w next : World} {mod after : DefiInsurance}
  {id : Nat}

theorem active_iff (now : Nat) (notZero : id ≠ 0) :
    mod.activeIncidentId now = id ↔ id + 1 = mod.nextIncidentId ∧ ¬ Ended mod id now := by
  constructor
  · intro active
    have opened := active_opened now (by rw [active]; exact notZero)
    refine ⟨by omega, ?_⟩
    rintro ⟨past, finished⟩
    have lastId : mod.nextIncidentId - 1 = id := by omega
    unfold DefiInsurance.activeIncidentId at active
    dsimp only at active
    rw [lastId, if_neg notZero, if_neg (Nat.not_le.mpr past)] at active
    rcases finished with none | expired
    · rw [if_pos none] at active
      exact notZero active.symm
    · rw [if_neg (Nat.not_le.mpr expired), ite_self] at active
      exact notZero active.symm
  · rintro ⟨last, notEnded⟩
    have lastId : mod.nextIncidentId - 1 = id := by omega
    unfold DefiInsurance.activeIncidentId
    dsimp only
    rw [lastId, if_neg notZero]
    by_cases inTime : now ≤ (mod.incidents id).phaseDeadline
    · rw [if_pos inTime]
    · rw [if_neg inTime]
      have stillOpen : ¬ ((mod.incidents id).unresolvedClaims = 0 ∨
          (mod.incidents id).phaseDeadline + mod.incidentPhaseWindow id < now) :=
        fun finished => notEnded ⟨Nat.lt_of_not_le inTime, finished⟩
      rw [not_or, not_lt] at stillOpen
      rw [if_neg stillOpen.1, if_pos stillOpen.2]

theorem Ended.later {now later : Nat} (ended : Ended mod id now) (passed : now ≤ later) :
    Ended mod id later :=
  ⟨ended.1.trans_le passed, ended.2.imp_right fun expired => expired.trans_le passed⟩

/-- An ended incident is not the active one. -/
theorem Ended.notActive {now : Nat} (ended : Ended mod id now) (notZero : id ≠ 0) :
    mod.activeIncidentId now ≠ id :=
  fun active => ((active_iff now notZero).mp active).2 ended

/-- A call of the module does not revive an ended incident. -/
theorem Ended.progress {call : ModuleCall} (ended : Ended mod id w.now) (positive : 1 ≤ id)
    (opened : id < mod.nextIncidentId) (progress : ModuleProgress m w next mod call after) :
    Ended after id w.now := by
  have inactive := ended.notActive (Nat.pos_iff_ne_zero.mp positive)
  unfold Ended
  rw [progress.windows id opened]
  have moved := progress.incidents id opened
  generalize after.incidents id = incident at moved ⊢
  cases moved with
  | same elsewhere => exact ended
  | filed claimSetHash active noRoot inTime elsewhere => exact absurd active inactive
  | cancelled claimSetHash active noRoot inTime elsewhere => exact absurd active inactive
  | committed root poolPayouts deadline callEq active registered rootNotZero phase lengths caps
      later => exact absurd active inactive
  | voided active hadRoot inTime elsewhere => exact absurd active inactive
  | recovered claimId row proof callEq claimOf counted noSettlement unpaid =>
      exact ⟨ended.1, ended.2.imp_left fun none => by rw [none] at counted; cases counted⟩
  | finalized claimId acceptPayout row proof budget callEq claimOf counted hasRoot afterDeadline
      unpaid drawn =>
      exact ⟨ended.1, ended.2.imp_left fun none => by rw [none] at counted; cases counted⟩

/-- Without an active incident all of them have ended. -/
theorem EarlierEnded.all {now : Nat} (earlier : EarlierEnded mod now)
    (idle : mod.activeIncidentId now = 0) (positive : 1 ≤ id) (opened : id < mod.nextIncidentId) :
    Ended mod id now := by
  by_cases last : id + 1 = mod.nextIncidentId
  · by_contra notEnded
    have active := (active_iff now (Nat.pos_iff_ne_zero.mp positive)).mpr ⟨last, notEnded⟩
    omega
  · exact earlier id positive (by omega)

theorem EarlierEnded.progress {call : ModuleCall} (earlier : EarlierEnded mod w.now)
    (progress : ModuleProgress m w next mod call after) : EarlierEnded after w.now := by
  intro id positive notLast
  have opened : id < mod.nextIncidentId := by
    rcases progress.opened with same | ⟨grown, -⟩ <;> omega
  refine Ended.progress ?_ positive opened progress
  rcases progress.opened with same | ⟨grown, idle, -⟩
  · exact earlier id positive (by omega)
  · exact earlier.all idle positive opened

/-- The Registry's module changes only to none or to one without an active incident. -/
theorem RegistryMoved.module (moved : RegistryMoved w next) :
    next.registry.defiInsurance = w.registry.defiInsurance ∨
      next.registry.defiInsurance = Address.zero ∨
      (w.payoutIncidentActive = false ∧
        ∃ mod, w.modules next.registry.defiInsurance = some mod ∧
          mod.activeIncidentId w.now = 0) := by
  cases moved with
  | scored same => exact Or.inl (by rw [same])
  | called sender call run =>
      cases (registry_exec_step call run).module with
      | kept same => exact Or.inl same
      | cleared zero => exact Or.inr (Or.inl zero)
      | replaced notZero notFrozen idle =>
          have answered : (w.modules next.registry.defiInsurance).map
              (fun mod => mod.activeIncidentId w.now) = some 0 := idle
          obtain ⟨mod, present, idleMod⟩ := Option.map_eq_some_iff.mp answered
          exact Or.inr (Or.inr ⟨notFrozen, mod, present, idleMod⟩)

/-- In every reachable world all incidents but the last one of a module have ended. -/
theorem reachable_earlierEnded (reachable : Reachable platform w)
    (present : w.modules m = some mod) : EarlierEnded mod w.now := by
  have both : Deployment w ∧ ∀ found, w.modules m = some found → EarlierEnded found w.now := by
    refine reachable.invariant (fun world => Deployment world ∧
      ∀ found, world.modules m = some found → EarlierEnded found world.now) ?_ ?_
    · intro block timelock admin erc20 erc1155
      refine ⟨Deployment.genesis block timelock admin erc20 erc1155, ?_⟩
      intro found foundPresent
      cases foundPresent
    · rintro world tx final ⟨deployment, earlier⟩ ran
      refine ⟨deployment.step ran, ?_⟩
      intro found foundPresent
      cases step_moduleView (m := m) deployment ran with
      | bystander _ notCalled same richer registry later =>
          rw [same] at foundPresent
          intro id positive notLast
          exact (earlier found foundPresent id positive notLast).later later
      | deployed fresh nextEq =>
          subst nextEq
          rw [setModule_self] at foundPresent
          cases foundPresent
          intro id positive notLast
          have bound : id + 1 < 1 := notLast
          omega
      | acted sender call external run =>
          obtain ⟨before, beforePresent⟩ :=
            Option.isSome_iff_exists.mp (callModule_deployed call run)
          obtain ⟨stored, storedPresent, progress⟩ := callModule_progress call beforePresent run
          cases foundPresent.symm.trans storedPresent
          have sameNow : final.now = world.now := by
            rw [World.now, World.now, (effects_frame (callModule_effects call run)).block]
          rw [sameNow]
          exact (earlier before beforePresent).progress progress
  exact both.2 mod present

theorem Retired.notActive (retired : Retired w m id) : ¬ IsActive w m id := by
  rintro ⟨registered, notZero, found, foundPresent, active⟩
  obtain ⟨mod, present, -, finished⟩ := retired
  cases present.symm.trans foundPresent
  rcases finished with ended | elsewhere
  · exact ended.notActive notZero active
  · exact elsewhere registered

theorem retired_of_notActive (reachable : Reachable platform w) (present : w.modules m = some mod)
    (positive : 1 ≤ id) (opened : id < mod.nextIncidentId) (inactive : ¬ IsActive w m id) :
    Retired w m id := by
  refine ⟨mod, present, opened, ?_⟩
  by_cases registered : w.registry.defiInsurance = m
  · left
    by_cases last : id + 1 = mod.nextIncidentId
    · by_contra notEnded
      have notZero : id ≠ 0 := Nat.pos_iff_ne_zero.mp positive
      exact inactive ⟨registered, notZero, mod, present,
        (active_iff w.now notZero).mpr ⟨last, notEnded⟩⟩
    · exact reachable_earlierEnded reachable present id positive (by omega)
  · exact Or.inr registered

/-- No step of the system brings a retired incident back. -/
theorem Retired.step {tx : Tx} (reachable : Reachable platform w) (positive : 1 ≤ id)
    (retired : Retired w m id) (ran : step platform w tx = .ok next) : Retired next m id := by
  have deployment := reachable_deployment reachable
  obtain ⟨mod, present, opened, finished⟩ := retired
  have earlier := reachable_earlierEnded reachable present
  cases step_moduleView (m := m) deployment ran with
  | bystander _ notCalled same richer registry later =>
      refine ⟨mod, same.trans present, opened, ?_⟩
      rcases finished with ended | elsewhere
      · exact Or.inl (ended.later later)
      · rcases registry.module with kept | cleared | ⟨-, candidate, candidatePresent, idle⟩
        · exact Or.inr (by rw [kept]; exact elsewhere)
        · right
          rw [cleared]
          exact Ne.symm (deployment.moduleNotZero m (by rw [present]; rfl))
        · by_cases back : next.registry.defiInsurance = m
          · rw [back, present] at candidatePresent
            cases candidatePresent
            exact Or.inl ((earlier.all idle positive opened).later later)
          · exact Or.inr back
  | deployed fresh nextEq =>
      rw [present] at fresh
      cases fresh
  | acted sender call external run =>
      obtain ⟨stored, storedPresent, progress⟩ := callModule_progress call present run
      have frame := effects_frame (callModule_effects call run)
      refine ⟨stored, storedPresent, ?_, ?_⟩
      · rcases progress.opened with same | ⟨grown, -⟩ <;> omega
      · rcases finished with ended | elsewhere
        · left
          rw [World.now, frame.block]
          exact ended.progress positive opened progress
        · exact Or.inr (by rw [frame.registry]; exact elsewhere)

theorem Retired.run {steps : List (Transition World Tx)} (reachable : Reachable platform w)
    (positive : 1 ≤ id) (retired : Retired w m id) (run : IsRun (Chain.step platform) w steps next) :
    Retired next m id := by
  have both : Reachable platform next ∧ Retired next m id := by
    refine run.invariant (fun world => Reachable platform world ∧ Retired world m id)
      ⟨reachable, retired⟩ ?_
    rintro world tx after ⟨reached, still⟩ ran
    exact ⟨reached.step ran, still.step reached positive ran⟩
  exact both.2

end Activity

/-! ## The moment of a payout -/

/-- `finalizeClaim` with `acceptPayout` has passed all its checks and released the
escrow: what follows is `_payClaimAmounts` and `recordScoreSpent`. -/
structure ReachesPayout (platform : Platform) (m sender : Address) (w : World)
    (mod : DefiInsurance) (claimId : Nat) (row : PayoutRow) (proof : List Hash)
    (released : World) : Prop where
  present : w.modules m = some mod
  filed : (mod.claims claimId).user ≠ Address.zero
  unresolved : (mod.claims claimId).resolved = false
  registered : w.registry.defiInsurance = m
  hasRoot : (mod.incidents (mod.claims claimId).incidentId).root ≠ Hash.zero
  checked : w.checkRow platform m sender mod claimId true row proof = .ok ()
  eligible : row.eligible = true
  release : w.releaseClaim m mod claimId true row = .ok released

/-- The incident exists and some continuation pays one of its claims. -/
def CanStillPay (platform : Platform) (w : World) (m : Address) (id : Nat) : Prop :=
  (∃ mod, w.modules m = some mod ∧ 1 ≤ id ∧ id < mod.nextIncidentId) ∧
    ∃ steps later sender mod claimId row proof released,
      IsRun (step platform) w steps later ∧
      ReachesPayout platform m sender later mod claimId row proof released ∧
      (mod.claims claimId).incidentId = id

section Paying

variable {platform : Platform} {m sender : Address} {w released : World} {mod : DefiInsurance}
  {claimId : Nat} {row : PayoutRow} {proof : List Hash}

/-- From there on the call is the payout and the closing of the claim. -/
theorem ReachesPayout.rest
    (reaches : ReachesPayout platform m sender w mod claimId row proof released) :
    w.finalizeClaim platform m sender claimId true row proof = (do
      let paid ← released.payAccepted platform m (mod.claims claimId).incidentId
        (mod.claims claimId).user row
      paid.closeClaim m claimId true true) := by
  have found := (getModule_ok_iff (w := w) mod).mpr reaches.present
  have notZero : revertIf ((mod.claims claimId).user = Address.zero)
      (.unauthorizedClaim claimId : ContractError) = .ok () :=
    (revertIf_ok_iff _ _ _).mpr reaches.filed
  have notResolved : revertIf ((mod.claims claimId).resolved = true)
      (.claimAlreadyResolved claimId : ContractError) = .ok () := by
    rw [revertIf_ok_iff, reaches.unresolved]
    exact Bool.false_ne_true
  have settles : ¬ (w.registry.defiInsurance ≠ m ∨
      (mod.incidents (mod.claims claimId).incidentId).root = Hash.zero) := by
    rw [not_or, not_not]
    exact ⟨reaches.registered, reaches.hasRoot⟩
  have paid : (true && row.eligible) = true := by rw [reaches.eligible]; rfl
  unfold World.finalizeClaim
  rw [found]
  dsimp only [Bind.bind, Except.bind]
  rw [notZero]
  dsimp only
  rw [notResolved]
  dsimp only
  rw [if_neg settles]
  unfold World.settleRow
  dsimp only [Bind.bind, Except.bind]
  rw [reaches.checked]
  dsimp only
  rw [paid, reaches.release]
  dsimp only
  rw [if_pos rfl, reaches.eligible]

/-- Every accepted payout has passed through that moment. -/
theorem reachesPayout_of_accepted {next : World} (eligible : row.eligible = true)
    (run : w.finalizeClaim platform m sender claimId true row proof = .ok next) :
    ∃ mod released, ReachesPayout platform m sender w mod claimId row proof released := by
  unfold World.finalizeClaim at run
  obtain ⟨mod, present, run⟩ := (bind_ok_iff _ _ _).mp run
  obtain ⟨_, filed, run⟩ := (bind_ok_iff _ _ _).mp run
  obtain ⟨_, unresolved, run⟩ := (bind_ok_iff _ _ _).mp run
  have deployed := (getModule_ok_iff mod).mp present
  have isFiled := (revertIf_ok_iff _ _ _).mp filed
  have isUnresolved : (mod.claims claimId).resolved = false := by
    simpa using (revertIf_ok_iff _ _ _).mp unresolved
  rcases (ite_ok_iff _ _ _ _).mp run with ⟨noSettlement, run⟩ | ⟨settled, run⟩
  · have declined := (recoverClaim_ok mod claimId true deployed isFiled isUnresolved noSettlement
      run).1
    cases declined
  · rw [not_or, not_not] at settled
    unfold World.settleRow at run
    obtain ⟨_, checked, run⟩ := (bind_ok_iff _ _ _).mp run
    obtain ⟨released, release, run⟩ := (bind_ok_iff _ _ _).mp run
    rw [eligible, Bool.and_true] at release
    exact ⟨mod, released, deployed, isFiled, isUnresolved, settled.1, settled.2, checked, eligible,
      release⟩

/-- The activity of a module depends on little of its storage. -/
theorem active_congr {after : DefiInsurance} (now : Nat)
    (nextIncidentId : after.nextIncidentId = mod.nextIncidentId)
    (deadlines : ∀ id, (after.incidents id).phaseDeadline = (mod.incidents id).phaseDeadline)
    (counts : ∀ id, (after.incidents id).unresolvedClaims = (mod.incidents id).unresolvedClaims)
    (windows : after.incidentPhaseWindow = mod.incidentPhaseWindow) :
    after.activeIncidentId now = mod.activeIncidentId now := by
  unfold DefiInsurance.activeIncidentId
  dsimp only
  rw [nextIncidentId, deadlines, counts, windows]

/-- The claim that is paid belongs to the active incident. -/
theorem ReachesPayout.active (reachable : Reachable platform w)
    (reaches : ReachesPayout platform m sender w mod claimId row proof released) :
    mod.activeIncidentId w.now = (mod.claims claimId).incidentId := by
  have book := (reachable_moduleInOrder reachable reaches.present).book
  have opened := book.incidentOf claimId reaches.filed
  have counted := (book.covers claimId reaches.filed reaches.unresolved).2.2
  have checked := checkRow_ok mod claimId true row proof _ reaches.checked
  have notEnded : ¬ Ended mod (mod.claims claimId).incidentId w.now := by
    rintro ⟨-, none | expired⟩
    · omega
    · exact absurd (checked.inWindow rfl) (Nat.not_le.mpr expired)
  refine (active_iff w.now (Nat.pos_iff_ne_zero.mp opened.1)).mpr ⟨?_, notEnded⟩
  by_contra notLast
  exact notEnded (reachable_earlierEnded reachable reaches.present _ opened.1 (by omega))

theorem payoutIncidentActive_of_isActive {id : Nat} (moduleNotZero : m ≠ Address.zero)
    (active : IsActive w m id) : w.payoutIncidentActive = true := by
  obtain ⟨registered, notZero, mod, present, activeId⟩ := active
  unfold World.payoutIncidentActive
  rw [registered, if_neg moduleNotZero, present]
  simp [activeId, notZero]

/-- Both before the payout loop and after it, when the score is recorded. -/
theorem ReachesPayout.isActive {here : World} (reachable : Reachable platform w)
    (reaches : ReachesPayout platform m sender w mod claimId row proof released)
    (moment : here = released ∨ released.payClaimAmounts m (mod.claims claimId).incidentId
      (mod.claims claimId).user row.amounts = .ok here) :
    IsActive here m (mod.claims claimId).incidentId ∧ here.payoutIncidentActive = true := by
  have deployment := reachable_deployment reachable
  have checked := checkRow_ok mod claimId true row proof _ reaches.checked
  have release := releaseClaim_ok mod claimId true row checked.boosters reaches.release
  have opened := (reachable_moduleInOrder reachable reaches.present).book.incidentOf claimId
    reaches.filed
  obtain ⟨-, -, sameRegistry, samePools, sameBlock⟩ := release.outflow
  have releasedPresent : released.modules m = some (releasedStorage mod claimId) := by
    obtain ⟨_, _, _, _, _, -, -, -, -, releasedEq⟩ := release.outcome
    rw [releasedEq]
    exact setModule_self _
  obtain ⟨budget, drawn⟩ : ∃ budget, Drawn m (mod.claims claimId).incidentId released here
      (releasedStorage mod claimId) budget := by
    rcases moment with same | paid
    · rw [same]
      exact ⟨_, Drawn.refl releasedPresent⟩
    · exact payClaimAmounts_drawn _ _ releasedPresent paid
  have sameNow : here.now = w.now := by rw [World.now, World.now, drawn.block, sameBlock]
  have stillActive : (withBudget (releasedStorage mod claimId) (mod.claims claimId).incidentId
      budget).activeIncidentId here.now = (mod.claims claimId).incidentId := by
    rw [sameNow, ← reaches.active reachable]
    apply active_congr
    · rfl
    · intro id
      by_cases same : id = (mod.claims claimId).incidentId
      · rw [same, ← reaches.active reachable, withBudget_incident]
        rfl
      · exact congrArg Incident.phaseDeadline (Function.update_of_ne
          (by rw [reaches.active reachable]; exact same) ..)
    · intro id
      by_cases same : id = (mod.claims claimId).incidentId
      · rw [same, ← reaches.active reachable, withBudget_incident]
        rfl
      · exact congrArg Incident.unresolvedClaims (Function.update_of_ne
          (by rw [reaches.active reachable]; exact same) ..)
    · rfl
  have active : IsActive here m (mod.claims claimId).incidentId := by
    refine ⟨?_, Nat.pos_iff_ne_zero.mp opened.1, _, drawn.stored, stillActive⟩
    rw [drawn.registry, sameRegistry]
    exact reaches.registered
  exact ⟨active, payoutIncidentActive_of_isActive
    (deployment.moduleNotZero m (by rw [reaches.present]; rfl)) active⟩

theorem CanStillPay.isActive {id : Nat} (reachable : Reachable platform w)
    (can : CanStillPay platform w m id) : IsActive w m id := by
  obtain ⟨⟨mod, present, positive, opened⟩, steps, later, sender, atLater, claimId, row, proof,
    released, run, reaches, idEq⟩ := can
  by_contra inactive
  have retired := (retired_of_notActive reachable present positive opened inactive).run reachable
    positive run
  apply retired.notActive
  have activeLater := reaches.active (reachable.extend run)
  rw [idEq] at activeLater
  exact ⟨reaches.registered, Nat.pos_iff_ne_zero.mp positive, atLater, reaches.present,
    activeLater⟩

/-- A voided incident has ended once its window lies in the past. -/
theorem voided_notActive {poolPayouts : List Nat} {next : World}
    (present : w.modules m = some mod)
    (run : w.adminCorrectSettlement m sender Hash.zero poolPayouts = .ok next)
    (window : mod.incidentPhaseWindow (mod.activeIncidentId w.now) < w.now) :
    Retired next m (mod.activeIncidentId w.now) := by
  obtain ⟨found, incidentId, ⟨-, done⟩ | ⟨deadline, done⟩⟩ :=
    adminCorrectSettlement_ok Hash.zero poolPayouts run
  · cases present.symm.trans done.present
    have idEq := done.active
    have opened := active_opened w.now (by rw [idEq]; exact done.notZero)
    have nextEq := done.outcome
    subst idEq nextEq
    have written : (mod.setIncident (mod.activeIncidentId w.now) (World.voidedIncident
        (mod.incidents (mod.activeIncidentId w.now)) w.now)).incidents
        (mod.activeIncidentId w.now) = World.voidedIncident
          (mod.incidents (mod.activeIncidentId w.now)) w.now := Function.update_self ..
    refine ⟨_, setModule_self _, ?_, Or.inl ⟨?_, Or.inr ?_⟩⟩
    · change mod.activeIncidentId w.now < mod.nextIncidentId
      omega
    · rw [written]
      change 0 < w.now
      omega
    · rw [written]
      change 0 + mod.incidentPhaseWindow (mod.activeIncidentId w.now) < w.now
      omega
  · exact absurd rfl done.rootNotZero

/-- Payouts happen in the one active incident of the registered module only; at most
one incident of all modules can still pay; and an incident that is not active, or
was voided, is never active again. -/
theorem single_paying_incident (reachable : Reachable platform w) :
    (∀ m sender mod claimId row proof released here,
      ReachesPayout platform m sender w mod claimId row proof released →
      (here = released ∨ released.payClaimAmounts m (mod.claims claimId).incidentId
        (mod.claims claimId).user row.amounts = .ok here) →
      IsActive here m (mod.claims claimId).incidentId ∧ here.payoutIncidentActive = true) ∧
    (∀ m id other otherId, CanStillPay platform w m id → CanStillPay platform w other otherId →
      m = other ∧ id = otherId) ∧
    (∀ m mod id, w.modules m = some mod → 1 ≤ id → id < mod.nextIncidentId →
      ¬ IsActive w m id →
      ∀ steps later, IsRun (step platform) w steps later → ¬ IsActive later m id) ∧
    ∀ m sender mod poolPayouts next, w.modules m = some mod →
      w.adminCorrectSettlement m sender Hash.zero poolPayouts = .ok next →
      mod.incidentPhaseWindow (mod.activeIncidentId w.now) < w.now →
      ¬ IsActive next m (mod.activeIncidentId w.now) := by
  refine ⟨?_, ?_, ?_, ?_⟩
  · intro m sender mod claimId row proof released here reaches moment
    exact reaches.isActive reachable moment
  · intro m id other otherId can otherCan
    obtain ⟨registered, -, mod, present, active⟩ := can.isActive reachable
    obtain ⟨otherRegistered, -, otherMod, otherPresent, otherActive⟩ :=
      otherCan.isActive reachable
    have sameModule : m = other := registered.symm.trans otherRegistered
    subst sameModule
    cases present.symm.trans otherPresent
    exact ⟨rfl, active.symm.trans otherActive⟩
  · intro m mod id present positive opened inactive steps later run
    have retired := retired_of_notActive reachable present positive opened inactive
    exact (retired.run reachable positive run).notActive
  · intro m sender mod poolPayouts next present run window
    exact (voided_notActive present run window).notActive

/-- Alice's payout in the small deployment is made by the active incident. -/
theorem smallDeployment_pays_active :
    ∃ w mod released, Reachable SmallDeployment.platform w ∧
      ReachesPayout SmallDeployment.platform SmallDeployment.module SmallDeployment.alice w mod 1
        SmallDeployment.aliceRow SmallDeployment.aliceProof released ∧
      IsActive released SmallDeployment.module (mod.claims 1).incidentId ∧
      released.payoutIncidentActive = true := by
  obtain ⟨steps, w, run, checked⟩ := SmallDeployment.reaches
    (SmallDeployment.stake ++ SmallDeployment.claim ++ SmallDeployment.settle)
    (fun w => (w.finalizeClaim SmallDeployment.platform SmallDeployment.module
      SmallDeployment.alice 1 true SmallDeployment.aliceRow SmallDeployment.aliceProof).isOk)
    (by decide +kernel)
  have accepted : ∃ next, w.finalizeClaim SmallDeployment.platform SmallDeployment.module
      SmallDeployment.alice 1 true SmallDeployment.aliceRow SmallDeployment.aliceProof =
        .ok next := by
    revert checked
    cases w.finalizeClaim SmallDeployment.platform SmallDeployment.module SmallDeployment.alice 1
      true SmallDeployment.aliceRow SmallDeployment.aliceProof with
    | error error => simp [Except.isOk, Except.toBool]
    | ok next => exact fun _ => ⟨next, rfl⟩
  obtain ⟨next, ran⟩ := accepted
  obtain ⟨mod, released, reaches⟩ := reachesPayout_of_accepted (by decide) ran
  exact ⟨w, mod, released, run.reachable, reaches,
    (single_paying_incident run.reachable).1 _ _ _ _ _ _ _ released reaches (Or.inl rfl)⟩

end Paying

end Usd8Core.Insurance
