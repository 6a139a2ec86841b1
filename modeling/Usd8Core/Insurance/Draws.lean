import Usd8Core.Insurance.Activity

/-!
# What an incident draws from its pools

A root can be committed and corrected only while the deadline has not passed, and a
claim can be accepted only after it has.  So the budgets of the last commit before
the first acceptance bound everything the incident ever draws.
-/

set_option autoImplicit false

namespace Usd8Core.Insurance

open Usd8Core.Lib.ByteWords
open Usd8Core.Lib.CheckedCall
open Usd8Core.Lib.TraceRun
open Usd8Core.Chain
open Usd8Core.Pool

/-- A successful `finalizeClaim` for a claim of the incident. -/
def Finalizes (m : Address) (id : Nat) (acceptPayout : Bool) (t : Transition World Tx) : Prop :=
  ∃ sender claimId row proof mod,
    t.action = .module m sender (.finalizeClaim claimId acceptPayout row proof) ∧
    t.before.modules m = some mod ∧ (mod.claims claimId).incidentId = id

/-- A claimant of the incident accepts. -/
def Accepts (m : Address) (id : Nat) (t : Transition World Tx) : Prop := Finalizes m id true t

/-- `_commitRoot` runs on the incident: a settlement or its correction. -/
def Commits (m : Address) (id : Nat) (root : Hash) (poolPayouts : List Nat)
    (t : Transition World Tx) : Prop :=
  root ≠ Hash.zero ∧
    (∃ sender mod, t.before.modules m = some mod ∧ mod.activeIncidentId t.before.now = id ∧
      ((∃ signature, t.action = .module m sender (.settleIncident root poolPayouts signature)) ∨
        t.action = .module m sender (.adminCorrectSettlement root poolPayouts)))

/-- What the pool at `p` pays out, to claimants and to the protocol, while a claim of
the incident is finalized. -/
def drawnBy (m : Address) (id : Nat) (p : Address) (t : Transition World Tx) : Nat :=
  match t.action with
  | .module target _ (.finalizeClaim claimId _ _ _) =>
      if target = m ∧ (t.before.modules m).any
          (fun mod => (mod.claims claimId).incidentId = id) = true
      then claimsPaid t.after p - claimsPaid t.before p
      else 0
  | _ => 0

def drawn (m : Address) (id : Nat) (p : Address) (steps : List (Transition World Tx)) : Nat :=
  (steps.map (drawnBy m id p)).sum

/-- The standing root and the remaining budget of the incident. -/
def rootOf (w : World) (m : Address) (id : Nat) : Option Hash :=
  (w.modules m).map fun mod => (mod.incidents id).root

def budgetOf (w : World) (m : Address) (id i : Nat) : Option Nat :=
  (w.modules m).bind fun mod => (mod.incidents id).poolBudget[i]?

section Steps

variable {platform : Platform} {m p : Address} {w next : World} {mod after : DefiInsurance}
  {id : Nat}

/-- The pools of an incident are distinct: they were the Registry's list. -/
theorem Deployment.coverPools_nodup (deployment : Deployment w) : w.registry.coverPools.Nodup := by
  unfold Registry.coverPools
  refine List.Nodup.map_on ?_ deployment.assets
  intro first firstListed second secondListed samePool
  obtain ⟨pool, present, assetEq⟩ := deployment.listed first firstListed
  obtain ⟨other, otherPresent, otherAssetEq⟩ := deployment.listed second secondListed
  rw [samePool, otherPresent] at present
  cases present
  exact assetEq.symm.trans otherAssetEq

/-- The pools of every incident are distinct. -/
theorem ModuleProgress.poolsNodup {call : ModuleCall} (deployment : Deployment w)
    (book : EscrowBook after) (progress : ModuleProgress m w next mod call after)
    (distinct : ∀ id, (mod.incidents id).pools.Nodup) (id : Nat) :
    (after.incidents id).pools.Nodup := by
  by_cases old : id < mod.nextIncidentId
  · have samePools : (after.incidents id).pools = (mod.incidents id).pools :=
      congrArg IncidentSnapshot.pools (progress.incidents id old).snapshot
    rw [samePools]
    exact distinct id
  · by_cases opened : id < after.nextIncidentId
    · have newest : id = mod.nextIncidentId := by
        rcases progress.opened with same | ⟨grown, -⟩ <;> omega
      subst newest
      obtain ⟨token, referenceBlock, fixed, -⟩ := progress.fresh opened
      have listed : (after.incidents mod.nextIncidentId).pools = w.registry.coverPools :=
        congrArg IncidentSnapshot.pools fixed
      rw [listed]
      exact deployment.coverPools_nodup
    · rw [book.unopened id (Nat.le_of_not_lt opened)]
      exact List.nodup_nil

theorem reachable_poolsNodup (reachable : Reachable platform w)
    (present : w.modules m = some mod) (id : Nat) : (mod.incidents id).pools.Nodup := by
  have both : Reachable platform w ∧ ∀ found, w.modules m = some found →
      ∀ id, (found.incidents id).pools.Nodup := by
    refine reachable.invariant (fun world => Reachable platform world ∧
      ∀ found, world.modules m = some found → ∀ id, (found.incidents id).pools.Nodup) ?_ ?_
    · intro block timelock admin erc20 erc1155
      refine ⟨⟨[], block, timelock, admin, erc20, erc1155, .nil⟩, ?_⟩
      intro found foundPresent
      cases foundPresent
    · rintro world tx final ⟨reached, distinct⟩ ran
      have deployment := reachable_deployment reached
      refine ⟨reached.step ran, ?_⟩
      intro found foundPresent
      cases step_moduleView (m := m) deployment ran with
      | bystander _ notCalled same richer registry later =>
          rw [same] at foundPresent
          exact distinct found foundPresent
      | deployed fresh nextEq =>
          subst nextEq
          rw [setModule_self] at foundPresent
          cases foundPresent
          exact fun _ => List.nodup_nil
      | acted sender call external run =>
          obtain ⟨before, beforePresent⟩ :=
            Option.isSome_iff_exists.mp (callModule_deployed call run)
          obtain ⟨stored, storedPresent, progress⟩ := callModule_progress call beforePresent run
          cases foundPresent.symm.trans storedPresent
          exact progress.poolsNodup deployment
            (reachable_moduleInOrder (reached.step ran) storedPresent).book
            (distinct before beforePresent)
  exact both.2 mod present id

/-! ## One step -/

/-- One step of the system as it concerns the settlement of the incident under `id`. -/
inductive SettlementMove (m : Address) (id : Nat) (t : Transition World Tx)
    (mod : DefiInsurance) (incident : Incident) : Prop
  | kept (notCommits : ∀ root poolPayouts, ¬ Commits m id root poolPayouts t)
      (notAccepts : ¬ Accepts m id t) (undrawn : ∀ p, drawnBy m id p t = 0)
      (root : incident.root = (mod.incidents id).root)
      (budget : incident.poolBudget = (mod.incidents id).poolBudget)
      (deadline : incident.phaseDeadline = (mod.incidents id).phaseDeadline)
  | committed (root : Hash) (poolPayouts : List Nat) (commits : Commits m id root poolPayouts t)
      (notAccepts : ¬ Accepts m id t) (undrawn : ∀ p, drawnBy m id p t = 0)
      (stillOpen : (mod.incidents id).root = Hash.zero ∨
        t.before.now ≤ (mod.incidents id).phaseDeadline)
      (lengths : poolPayouts.length = (mod.incidents id).pools.length)
      (caps : t.before.checkPayoutCaps 0 (mod.incidents id).pools poolPayouts = .ok ())
      (root : incident.root = root) (budget : incident.poolBudget = poolPayouts)
  | voided (notCommits : ∀ root poolPayouts, ¬ Commits m id root poolPayouts t)
      (notAccepts : ¬ Accepts m id t) (undrawn : ∀ p, drawnBy m id p t = 0)
      (inTime : t.before.now ≤ (mod.incidents id).phaseDeadline)
      (root : incident.root = Hash.zero)
  | accepted (notCommits : ∀ root poolPayouts, ¬ Commits m id root poolPayouts t)
      (accepts : Accepts m id t)
      (hasRoot : (mod.incidents id).root ≠ Hash.zero)
      (afterDeadline : (mod.incidents id).phaseDeadline < t.before.now)
      (root : incident.root = (mod.incidents id).root)
      (deadline : incident.phaseDeadline = (mod.incidents id).phaseDeadline)
      (drawn : ∀ (i : Nat) (p : Address) (before : Nat), (mod.incidents id).pools[i]? = some p →
        (mod.incidents id).poolBudget[i]? = some before →
        ∃ left, incident.poolBudget[i]? = some left ∧ left + drawnBy m id p t = before)

theorem Commits.outcome {root : Hash} {poolPayouts : List Nat} {t : Transition World Tx}
    (deployment : Deployment t.before) (present : t.before.modules m = some mod)
    (commits : Commits m id root poolPayouts t)
    (ran : step platform t.before t.action = .ok t.after) :
    ∃ deadline, Committed m t.before t.after mod id root poolPayouts deadline := by
  obtain ⟨rootNotZero, sender, found, foundPresent, active, callEq⟩ := commits
  cases present.symm.trans foundPresent
  rcases callEq with ⟨signature, action⟩ | action
  · rw [action] at ran
    cases step_moduleView (m := m) deployment ran with
    | bystander _ notCalled same richer registry later => exact absurd rfl (notCalled _ _)
    | acted _ _ external run =>
        cases callModule_cases _ run with
        | configured _ quiet noCommit noSettle done => exact absurd rfl (noSettle _ _ _)
        | settled _ _ _ other incidentId deadline done =>
            cases present.symm.trans done.present
            cases active.symm.trans done.active
            exact ⟨deadline, done⟩
  · rw [action] at ran
    cases step_moduleView (m := m) deployment ran with
    | bystander _ notCalled same richer registry later => exact absurd rfl (notCalled _ _)
    | acted _ _ external run =>
        cases callModule_cases _ run with
        | configured _ quiet noCommit noSettle done => exact absurd rfl (noCommit _ _)
        | voided _ other incidentId done => exact absurd rfl rootNotZero
        | corrected _ _ other incidentId deadline done =>
            cases present.symm.trans done.present
            cases active.symm.trans done.active
            exact ⟨deadline, done⟩

/-- Nothing is drawn outside the finalization of a claim of the incident. -/
theorem drawnBy_elsewhere {t : Transition World Tx} (present : t.before.modules m = some mod)
    (elsewhere : ∀ sender claimId acceptPayout row proof,
      t.action = .module m sender (.finalizeClaim claimId acceptPayout row proof) →
        (mod.claims claimId).incidentId ≠ id) (p : Address) : drawnBy m id p t = 0 := by
  unfold drawnBy
  split
  next target sender claimId acceptPayout row proof action =>
    rw [if_neg]
    rintro ⟨rfl, found⟩
    rw [present] at found
    exact elsewhere sender claimId acceptPayout row proof action (by simpa using found)
  next => rfl

theorem drawnBy_finalized {t : Transition World Tx} {sender : Address} {claimId : Nat}
    {acceptPayout : Bool} {row : PayoutRow} {proof : List Hash}
    (present : t.before.modules m = some mod)
    (action : t.action = .module m sender (.finalizeClaim claimId acceptPayout row proof))
    (claimOf : (mod.claims claimId).incidentId = id) (p : Address) :
    drawnBy m id p t = claimsPaid t.after p - claimsPaid t.before p := by
  unfold drawnBy
  rw [action]
  dsimp only
  rw [present, if_pos ⟨rfl, by simpa using claimOf⟩]

theorem notAccepts_elsewhere {t : Transition World Tx} (present : t.before.modules m = some mod)
    (elsewhere : ∀ sender claimId acceptPayout row proof,
      t.action = .module m sender (.finalizeClaim claimId acceptPayout row proof) →
        (mod.claims claimId).incidentId ≠ id) : ¬ Accepts m id t := by
  rintro ⟨sender, claimId, row, proof, found, action, foundPresent, claimOf⟩
  cases present.symm.trans foundPresent
  exact elsewhere sender claimId true row proof action claimOf

/-- A call that finalizes no claim of the incident. -/
theorem FinalizesWithin.elsewhere {t : Transition World Tx} {sender : Address} {call : ModuleCall}
    (within : FinalizesWithin mod call (· ≠ id)) (action : t.action = .module m sender call) :
    ∀ sender claimId acceptPayout row proof,
      t.action = .module m sender (.finalizeClaim claimId acceptPayout row proof) →
        (mod.claims claimId).incidentId ≠ id := by
  intro other claimId acceptPayout row proof sameAction
  rw [action] at sameAction
  cases sameAction
  exact within claimId acceptPayout row proof rfl

theorem claimsPaid_mono (grown : w.logs <+: next.logs) (p : Address) :
    claimsPaid w p ≤ claimsPaid next p := by
  obtain ⟨later, logs⟩ := grown
  unfold claimsPaid eventsOf
  rw [← logs, List.filter_append, List.map_append, List.map_append, List.sum_append]
  exact Nat.le_add_right _ _

/-- A declined claim is not an acceptance. -/
theorem notAccepts_declined {t : Transition World Tx} {sender : Address} {claimId : Nat}
    {row : PayoutRow} {proof : List Hash}
    (action : t.action = .module m sender (.finalizeClaim claimId false row proof)) :
    ¬ Accepts m id t := by
  rintro ⟨_, _, _, _, _, accepted, -⟩
  rw [action] at accepted
  cases accepted

theorem Commits.move {root : Hash} {poolPayouts : List Nat} {t : Transition World Tx}
    (deployment : Deployment t.before) (present : t.before.modules m = some mod)
    (presentAfter : t.after.modules m = some after) (commits : Commits m id root poolPayouts t)
    (ran : step platform t.before t.action = .ok t.after) :
    SettlementMove m id t mod (after.incidents id) := by
  have elsewhere : ∀ sender claimId acceptPayout row proof,
      t.action = .module m sender (.finalizeClaim claimId acceptPayout row proof) →
        (mod.claims claimId).incidentId ≠ id := by
    obtain ⟨-, sender, _, -, -, ⟨signature, action⟩ | action⟩ := commits
    · simp [action]
    · simp [action]
  obtain ⟨deadline, done⟩ := commits.outcome deployment present ran
  obtain ⟨stored, storage, event, same, written, afterEq, -⟩ := done.outcome
  have storageEq : after = storage := by
    rw [afterEq] at presentAfter
    exact Option.some.inj (presentAfter.symm.trans written.frame.1)
  have incidentEq : after.incidents id = { mod.incidents id with
      poolBudget := poolPayouts, root := root, phaseDeadline := deadline } := by
    rw [storageEq, same.incidents]
    exact Function.update_self ..
  rw [incidentEq]
  exact .committed root poolPayouts commits (notAccepts_elsewhere present elsewhere)
    (drawnBy_elsewhere present elsewhere) (done.phase.imp And.left And.right) done.lengths
    done.caps rfl rfl

/-- Every step either leaves the settlement alone, commits it, takes it back, or draws
from its budgets. -/
theorem step_settlementMove {t : Transition World Tx} (reachable : Reachable platform t.before)
    (present : t.before.modules m = some mod) (opened : id < mod.nextIncidentId)
    (ran : step platform t.before t.action = .ok t.after) :
    ∃ after, t.after.modules m = some after ∧ id < after.nextIncidentId ∧
      t.before.now ≤ t.after.now ∧ (after.incidents id).pools = (mod.incidents id).pools ∧
      SettlementMove m id t mod (after.incidents id) := by
  have deployment := reachable_deployment reachable
  obtain ⟨after, presentAfter, stillOpened, later, moved⟩ :=
    step_progress deployment present opened ran
  obtain ⟨found, foundPresent, -, fixed, -⟩ := step_snapshot deployment present opened ran
  cases presentAfter.symm.trans foundPresent
  refine ⟨after, presentAfter, stillOpened, later, congrArg IncidentSnapshot.pools fixed, ?_⟩
  rcases moved with ⟨notCalled, same⟩ | ⟨sender, call, action, run, progress⟩
  · have elsewhere : ∀ sender claimId acceptPayout row proof,
        t.action = .module m sender (.finalizeClaim claimId acceptPayout row proof) →
          (mod.claims claimId).incidentId ≠ id :=
      fun sender claimId acceptPayout row proof action => absurd action (notCalled _ _)
    rw [same]
    refine .kept ?_ (notAccepts_elsewhere present elsewhere) (drawnBy_elsewhere present elsewhere)
      rfl rfl rfl
    rintro root poolPayouts ⟨-, sender, _, -, -, ⟨signature, action⟩ | action⟩
    · exact notCalled _ _ action
    · exact notCalled _ _ action
  · by_cases commits : ∃ root poolPayouts, Commits m id root poolPayouts t
    · obtain ⟨root, poolPayouts, commits⟩ := commits
      exact commits.move deployment present presentAfter ran
    · have notCommits : ∀ root poolPayouts, ¬ Commits m id root poolPayouts t :=
        fun root poolPayouts found => commits ⟨root, poolPayouts, found⟩
      have step := progress.incidents id opened
      have grown := effects_logs (callModule_effects call run)
      generalize after.incidents id = incident at step ⊢
      cases step with
      | same within =>
          have elsewhere := within.elsewhere action
          exact .kept notCommits (notAccepts_elsewhere present elsewhere)
            (drawnBy_elsewhere present elsewhere) rfl rfl rfl
      | filed claimSetHash active noRoot inTime within =>
          have elsewhere := within.elsewhere action
          exact .kept notCommits (notAccepts_elsewhere present elsewhere)
            (drawnBy_elsewhere present elsewhere) rfl rfl rfl
      | cancelled claimSetHash active noRoot inTime within =>
          have elsewhere := within.elsewhere action
          exact .kept notCommits (notAccepts_elsewhere present elsewhere)
            (drawnBy_elsewhere present elsewhere) rfl rfl rfl
      | committed root poolPayouts deadline callEq active registered rootNotZero phase lengths caps
          later =>
          refine absurd ⟨rootNotZero, sender, mod, present, active, ?_⟩
            (notCommits root poolPayouts)
          rcases callEq with ⟨signature, callEq⟩ | callEq
          · exact Or.inl ⟨signature, by rw [action, callEq]⟩
          · exact Or.inr (by rw [action, callEq])
      | voided active hadRoot inTime within =>
          have elsewhere := within.elsewhere action
          exact .voided notCommits (notAccepts_elsewhere present elsewhere)
            (drawnBy_elsewhere present elsewhere) inTime rfl
      | recovered claimId row proof callEq claimOf counted noSettlement unpaid =>
          rw [callEq] at action
          refine .kept notCommits (notAccepts_declined action) ?_ rfl rfl rfl
          intro p
          rw [drawnBy_finalized present action claimOf, unpaid p, Nat.sub_self]
      | finalized claimId acceptPayout row proof budget callEq claimOf counted hasRoot afterDeadline
          unpaid drawn =>
          rw [callEq] at action
          cases acceptPayout with
          | false =>
              obtain ⟨sameBudget, unpaid⟩ := unpaid rfl
              refine .kept notCommits (notAccepts_declined action) ?_ rfl sameBudget rfl
              intro p
              rw [drawnBy_finalized present action claimOf, unpaid p, Nat.sub_self]
          | true =>
              refine .accepted notCommits ⟨sender, claimId, row, proof, mod, action, present, claimOf⟩
                hasRoot afterDeadline rfl rfl ?_
              intro i p before atPool atBudget
              obtain ⟨left, atLeft, paid⟩ := drawn (reachable_poolsNodup reachable present id) i p
                before atPool atBudget
              refine ⟨left, atLeft, ?_⟩
              rw [drawnBy_finalized present action claimOf]
              have grownPaid := claimsPaid_mono grown p
              omega

end Steps

/-! ## Whole runs -/

/-- The last commit of the run put the root and the budgets in place. -/
def StandingCommit (m : Address) (id : Nat) (steps : List (Transition World Tx))
    (incident : Incident) : Prop :=
  ∃ earlier commit since, steps = earlier ++ commit :: since ∧
    Commits m id incident.root incident.poolBudget commit ∧
    (∀ t ∈ since, ∀ root poolPayouts, ¬ Commits m id root poolPayouts t) ∧
    incident.poolBudget.length = incident.pools.length ∧
    commit.before.checkPayoutCaps 0 incident.pools incident.poolBudget = .ok ()

/-- A root stands over these pools and its deadline has passed. -/
def Locked (w : World) (m : Address) (id : Nat) (pools : List Address) : Prop :=
  ∃ mod, w.modules m = some mod ∧ id < mod.nextIncidentId ∧
    (mod.incidents id).pools = pools ∧ (mod.incidents id).root ≠ Hash.zero ∧
    (mod.incidents id).phaseDeadline < w.now

/-- From `w` to `next` the root stays and every budget falls by what was drawn. -/
structure DrawnDown (m : Address) (id : Nat) (pools : List Address) (w next : World)
    (steps : List (Transition World Tx)) : Prop where
  root : rootOf next m id = rootOf w m id
  budget : ∀ (i : Nat) (p : Address) (before : Nat), pools[i]? = some p →
    budgetOf w m id i = some before →
    ∃ left, budgetOf next m id i = some left ∧ left + drawn m id p steps = before

section Runs

variable {platform : Platform} {m p : Address} {w next : World} {mod after : DefiInsurance}
  {id : Nat} {pools : List Address} {steps : List (Transition World Tx)}

theorem drawn_append (first second : List (Transition World Tx)) :
    drawn m id p (first ++ second) = drawn m id p first + drawn m id p second := by
  simp [drawn]

@[simp] theorem drawn_single (t : Transition World Tx) : drawn m id p [t] = drawnBy m id p t := by
  simp [drawn]

/-- The `i`-th budget of a commit is within the cap of the `i`-th pool. -/
theorem checkPayoutCaps_at (pools : List Address) (payouts : List Nat) (k i : Nat) (payout : Nat)
    (run : w.checkPayoutCaps k pools payouts = .ok ()) (atPool : pools[i]? = some p)
    (atPayout : payouts[i]? = some payout) :
    ∃ pool cap, w.pools p = some pool ∧ pool.maxPayoutPerIncident w.registry = .ok cap ∧
      payout ≤ cap := by
  induction pools generalizing payouts k i with
  | nil => simp at atPool
  | cons q rest ih =>
      cases payouts with
      | nil => simp at atPayout
      | cons first payouts =>
          simp only [World.checkPayoutCaps, bind_ok_iff, getPool_ok_iff, revertIf_ok_iff] at run
          obtain ⟨pool, present, cap, capRun, _, within, run⟩ := run
          cases i with
          | zero =>
              simp only [List.getElem?_cons_zero, Option.some.injEq] at atPool atPayout
              subst atPool atPayout
              exact ⟨pool, cap, present, capRun, Nat.le_of_not_lt within⟩
          | succ i =>
              exact ih payouts (k + 1) i run (by simpa using atPool) (by simpa using atPayout)

/-- An incident with a root was opened before the step that leads here. -/
theorem opened_of_root {tx : Tx} (reachable : Reachable platform w)
    (ran : step platform w tx = .ok next) (presentAfter : next.modules m = some after)
    (hasRoot : (after.incidents id).root ≠ Hash.zero) :
    ∃ mod, w.modules m = some mod ∧ id < mod.nextIncidentId := by
  have bookAfter := (reachable_moduleInOrder (reachable.step ran) presentAfter).book
  have openedAfter : id < after.nextIncidentId := by
    by_contra unopened
    rw [bookAfter.unopened id (Nat.le_of_not_lt unopened)] at hasRoot
    exact hasRoot rfl
  cases step_moduleView (m := m) (reachable_deployment reachable) ran with
  | bystander _ notCalled same richer registry later =>
      exact ⟨after, same.symm.trans presentAfter, openedAfter⟩
  | deployed fresh nextEq =>
      subst nextEq
      rw [setModule_self] at presentAfter
      cases presentAfter
      exact absurd rfl hasRoot
  | acted sender call external run =>
      obtain ⟨mod, present⟩ := Option.isSome_iff_exists.mp (callModule_deployed call run)
      obtain ⟨stored, storedPresent, progress⟩ := callModule_progress call present run
      cases presentAfter.symm.trans storedPresent
      refine ⟨mod, present, ?_⟩
      by_contra unopened
      have newest : id = mod.nextIncidentId := by
        rcases progress.opened with same | ⟨grown, -⟩ <;> omega
      subst newest
      obtain ⟨token, referenceBlock, -, sameRoot, -⟩ := progress.fresh openedAfter
      have book := (reachable_moduleInOrder reachable present).book
      rw [sameRoot, book.unopened _ le_rfl] at hasRoot
      exact hasRoot rfl

/-- Without an acceptance so far, a standing root is that of the last commit. -/
theorem standingCommit_of_root (run : SystemRun platform steps w)
    (unaccepted : ∀ t ∈ steps, ¬ Accepts m id t) (present : w.modules m = some mod)
    (hasRoot : (mod.incidents id).root ≠ Hash.zero) :
    StandingCommit m id steps (mod.incidents id) := by
  obtain ⟨block, timelock, admin, erc20, erc1155, run⟩ := run
  induction run generalizing mod with
  | nil => cases present
  | snoc earlier middle tx final run last ih =>
      have reachable : Reachable platform middle :=
        ⟨earlier, block, timelock, admin, erc20, erc1155, run⟩
      obtain ⟨before, presentBefore, opened⟩ := opened_of_root reachable last present hasRoot
      obtain ⟨stored, storedPresent, -, -, samePools, moved⟩ :=
        step_settlementMove (t := ⟨middle, tx, final⟩) reachable presentBefore opened last
      cases present.symm.trans storedPresent
      have unacceptedEarlier : ∀ t ∈ earlier, ¬ Accepts m id t :=
        fun t listed => unaccepted t (List.mem_append_left _ listed)
      cases moved with
      | kept notCommits notAccepts undrawn root budget deadline =>
          rw [root] at hasRoot
          obtain ⟨earliest, commit, since, stepsEq, commits, alone, lengths, caps⟩ :=
            ih unacceptedEarlier presentBefore hasRoot
          refine ⟨earliest, commit, since ++ [⟨middle, tx, final⟩], by simp [stepsEq], ?_, ?_, ?_, ?_⟩
          · rw [root, budget]
            exact commits
          · intro t listed
            rcases List.mem_append.mp listed with old | newest
            · exact alone t old
            · rw [List.mem_singleton.mp newest]
              exact notCommits
          · rw [budget, samePools]
            exact lengths
          · rw [budget, samePools]
            exact caps
      | committed newRoot poolPayouts commits notAccepts undrawn stillOpen lengths caps root budget =>
          refine ⟨earlier, ⟨middle, tx, final⟩, [], rfl, ?_, by simp, ?_, ?_⟩
          · rw [root, budget]
            exact commits
          · rw [budget, samePools]
            exact lengths
          · rw [budget, samePools]
            exact caps
      | voided notCommits notAccepts undrawn inTime root => exact absurd root hasRoot
      | accepted notCommits accepts hadRoot afterDeadline root deadline drawn =>
          exact absurd accepts (unaccepted _ (by simp))

/-- The first acceptance finds the settlement locked. -/
theorem Accepts.locked {t : Transition World Tx} (reachable : Reachable platform t.before)
    (accepts : Accepts m id t) (ran : step platform t.before t.action = .ok t.after) :
    ∃ pools, Locked t.before m id pools := by
  obtain ⟨sender, claimId, row, proof, mod, action, present, claimOf⟩ := accepts
  have book := (reachable_moduleInOrder reachable present).book
  rw [action] at ran
  cases step_moduleView (m := m) (reachable_deployment reachable) ran with
  | bystander _ notCalled same richer registry later => exact absurd rfl (notCalled _ _)
  | acted _ _ external run =>
      cases callModule_cases _ run with
      | configured _ quiet noCommit noSettle done => exact absurd rfl (quiet _ _ _ _)
      | finalized _ _ _ _ found done =>
          cases present.symm.trans done.present
          subst claimOf
          exact ⟨_, mod, present, (book.incidentOf claimId done.filed).2, rfl, done.hasRoot,
            done.checked.afterDeadline⟩

/-- No step unlocks a settlement or rewrites it. -/
theorem Locked.step {t : Transition World Tx} (reachable : Reachable platform t.before)
    (locked : Locked t.before m id pools)
    (ran : Chain.step platform t.before t.action = .ok t.after) :
    Locked t.after m id pools ∧ DrawnDown m id pools t.before t.after [t] := by
  obtain ⟨mod, present, opened, poolsEq, hasRoot, passed⟩ := locked
  obtain ⟨after, presentAfter, stillOpened, later, samePools, moved⟩ :=
    step_settlementMove reachable present opened ran
  subst poolsEq
  have rootBefore : rootOf t.before m id = some (mod.incidents id).root := by
    rw [rootOf, present, Option.map_some]
  have rootAfter : rootOf t.after m id = some (after.incidents id).root := by
    rw [rootOf, presentAfter, Option.map_some]
  have budgetBefore : ∀ i, budgetOf t.before m id i = (mod.incidents id).poolBudget[i]? := by
    intro i
    rw [budgetOf, present, Option.bind_some]
  have budgetAfter : ∀ i, budgetOf t.after m id i = (after.incidents id).poolBudget[i]? := by
    intro i
    rw [budgetOf, presentAfter, Option.bind_some]
  cases moved with
  | kept notCommits notAccepts undrawn root budget deadline =>
      refine ⟨⟨after, presentAfter, stillOpened, samePools, by rw [root]; exact hasRoot, ?_⟩, ?_, ?_⟩
      · rw [deadline]
        exact passed.trans_le later
      · rw [rootBefore, rootAfter, root]
      · intro i p before _ atBudget
        refine ⟨before, ?_, by rw [drawn_single, undrawn p, Nat.add_zero]⟩
        rw [budgetAfter, budget, ← budgetBefore, atBudget]
  | committed newRoot poolPayouts commits notAccepts undrawn stillOpen lengths caps root budget =>
      rcases stillOpen with noRoot | inTime
      · exact absurd noRoot hasRoot
      · exact absurd passed (Nat.not_lt.mpr inTime)
  | voided notCommits notAccepts undrawn inTime root =>
      exact absurd passed (Nat.not_lt.mpr inTime)
  | accepted notCommits accepts hadRoot afterDeadline root deadline drawnDown =>
      refine ⟨⟨after, presentAfter, stillOpened, samePools, by rw [root]; exact hasRoot, ?_⟩, ?_, ?_⟩
      · rw [deadline]
        exact passed.trans_le later
      · rw [rootBefore, rootAfter, root]
      · intro i p before atPool atBudget
        rw [budgetBefore] at atBudget
        obtain ⟨left, atLeft, fell⟩ := drawnDown i p before atPool atBudget
        exact ⟨left, by rw [budgetAfter, atLeft], by rw [drawn_single, fell]⟩

theorem DrawnDown.trans {middle : World} {later : List (Transition World Tx)}
    (first : DrawnDown m id pools w middle steps)
    (second : DrawnDown m id pools middle next later) :
    DrawnDown m id pools w next (steps ++ later) := by
  refine ⟨second.root.trans first.root, ?_⟩
  intro i p before atPool atBudget
  obtain ⟨between, atMiddle, fell⟩ := first.budget i p before atPool atBudget
  obtain ⟨left, atLeft, fellAgain⟩ := second.budget i p between atPool atMiddle
  exact ⟨left, atLeft, by rw [drawn_append]; omega⟩

/-- A locked settlement stays locked, and all that happens to it is drawing. -/
theorem Locked.run (reachable : Reachable platform w) (locked : Locked w m id pools)
    (run : IsRun (Chain.step platform) w steps next) :
    Locked next m id pools ∧ DrawnDown m id pools w next steps := by
  induction run with
  | nil => exact ⟨locked, rfl, fun i p before _ atBudget => ⟨before, atBudget, rfl⟩⟩
  | snoc earlier middle tx final run last ih =>
      obtain ⟨stillLocked, fell⟩ := ih
      obtain ⟨lockedAfter, fellLast⟩ :=
        stillLocked.step (t := ⟨middle, tx, final⟩) (reachable.extend run) last
      exact ⟨lockedAfter, fell.trans fellLast⟩

/-- A finalized claim belongs to an incident that was opened. -/
theorem finalizes_opened {tx : Tx} {sender : Address} {claimId : Nat} {acceptPayout : Bool}
    {row : PayoutRow} {proof : List Hash} (reachable : Reachable platform w)
    (present : w.modules m = some mod)
    (action : tx = .module m sender (.finalizeClaim claimId acceptPayout row proof))
    (ran : step platform w tx = .ok next) : (mod.claims claimId).incidentId < mod.nextIncidentId := by
  have book := (reachable_moduleInOrder reachable present).book
  rw [action] at ran
  cases step_moduleView (m := m) (reachable_deployment reachable) ran with
  | bystander _ notCalled same richer registry later => exact absurd rfl (notCalled _ _)
  | acted _ _ external run =>
      cases callModule_cases _ run with
      | configured _ quiet noCommit noSettle done => exact absurd rfl (quiet _ _ _ _)
      | recovered _ _ _ found done =>
          cases present.symm.trans done.present
          exact (book.incidentOf claimId done.filed).2
      | finalized _ _ _ _ found done =>
          cases present.symm.trans done.present
          exact (book.incidentOf claimId done.filed).2

theorem drawnBy_unaccepted {t : Transition World Tx} (reachable : Reachable platform t.before)
    (notAccepts : ¬ Accepts m id t) (ran : step platform t.before t.action = .ok t.after) :
    drawnBy m id p t = 0 := by
  cases present : t.before.modules m with
  | none =>
      unfold drawnBy
      split
      · simp [present]
      · rfl
  | some mod =>
      by_cases opened : id < mod.nextIncidentId
      · obtain ⟨after, -, -, -, -, moved⟩ := step_settlementMove reachable present opened ran
        cases moved with
        | kept notCommits _ undrawn root budget deadline => exact undrawn p
        | committed newRoot poolPayouts commits _ undrawn stillOpen lengths caps root budget =>
            exact undrawn p
        | voided notCommits _ undrawn inTime root => exact undrawn p
        | accepted notCommits accepts hadRoot afterDeadline root deadline drawn =>
            exact absurd accepts notAccepts
      · refine drawnBy_elsewhere present ?_ p
        intro sender claimId acceptPayout row proof action claimOf
        exact opened (claimOf ▸ finalizes_opened reachable present action ran)

/-- Only an acceptance draws. -/
theorem drawn_unaccepted (run : SystemRun platform steps w)
    (unaccepted : ∀ t ∈ steps, ¬ Accepts m id t) : drawn m id p steps = 0 := by
  obtain ⟨block, timelock, admin, erc20, erc1155, run⟩ := run
  induction run with
  | nil => rfl
  | snoc earlier middle tx final run last ih =>
      have reachable : Reachable platform middle :=
        ⟨earlier, block, timelock, admin, erc20, erc1155, run⟩
      have notAccepts := unaccepted ⟨middle, tx, final⟩ (by simp)
      rw [drawn_append, ih fun t listed => unaccepted t (List.mem_append_left _ listed),
        drawn_single, Nat.zero_add]
      exact drawnBy_unaccepted reachable notAccepts last

/-- Over any run an incident draws from each of its pools at most the budget of the
last commit before the first acceptance, which was within the pool's cap; and from
that acceptance on the root stands and the budgets fall by what is drawn. -/
theorem incident_draws_bounded (run : SystemRun platform steps w)
    (present : w.modules m = some mod) (i : Nat) (listed : (mod.incidents id).pools[i]? = some p) :
    ((∀ t ∈ steps, ¬ Accepts m id t) → drawn m id p steps = 0) ∧
    ∀ early first late, steps = early ++ first :: late → (∀ t ∈ early, ¬ Accepts m id t) →
      Accepts m id first →
      ∃ earlier commit since root poolPayouts budget pool cap,
        early = earlier ++ commit :: since ∧ Commits m id root poolPayouts commit ∧
        (∀ t ∈ since, ∀ otherRoot otherPayouts, ¬ Commits m id otherRoot otherPayouts t) ∧
        poolPayouts[i]? = some budget ∧ drawn m id p steps ≤ budget ∧
        commit.before.pools p = some pool ∧
        pool.maxPayoutPerIncident commit.before.registry = .ok cap ∧ budget ≤ cap ∧
        ∀ t ∈ first :: late, rootOf t.before m id = some root ∧ rootOf t.after m id = some root ∧
          ∃ before left, budgetOf t.before m id i = some before ∧
            budgetOf t.after m id i = some left ∧ left + drawnBy m id p t = before := by
  refine ⟨fun unaccepted => drawn_unaccepted run unaccepted, ?_⟩
  rintro early first late rfl unaccepted accepts
  obtain ⟨earlyRun, ran, lateRun⟩ := run.split_at
  have reachable := earlyRun.reachable
  obtain ⟨pools, locked⟩ := accepts.locked reachable ran
  have fromFirst : IsRun (step platform) first.before (first :: late) w := .cons ran lateRun
  obtain ⟨⟨found, foundPresent, -, foundPools, -, -⟩, fell⟩ := locked.run reachable fromFirst
  cases present.symm.trans foundPresent
  rw [foundPools] at listed
  have lockedFirst := locked
  obtain ⟨atFirst, presentFirst, -, poolsFirst, hasRoot, -⟩ := lockedFirst
  obtain ⟨earlier, commit, since, earlyEq, commits, alone, lengths, caps⟩ :=
    standingCommit_of_root earlyRun unaccepted presentFirst hasRoot
  rw [poolsFirst] at lengths caps
  obtain ⟨budget, atBudget⟩ : ∃ budget, (atFirst.incidents id).poolBudget[i]? = some budget := by
    obtain ⟨inside, -⟩ := List.getElem?_eq_some_iff.mp listed
    exact ⟨_, List.getElem?_eq_getElem (by omega)⟩
  obtain ⟨pool, cap, poolPresent, capEq, within⟩ :=
    checkPayoutCaps_at _ _ 0 i budget caps listed atBudget
  have budgetFirst : budgetOf first.before m id i = some budget := by
    rw [budgetOf, presentFirst, Option.bind_some, atBudget]
  have rootFirst : rootOf first.before m id = some (atFirst.incidents id).root := by
    rw [rootOf, presentFirst, Option.map_some]
  refine ⟨earlier, commit, since, _, _, budget, pool, cap, earlyEq, commits, alone, atBudget, ?_,
    poolPresent, capEq, within, ?_⟩
  · obtain ⟨left, -, total⟩ := fell.budget i p budget listed budgetFirst
    rw [drawn_append, drawn_unaccepted earlyRun unaccepted]
    omega
  · intro t inLate
    obtain ⟨before, after, split⟩ := List.append_of_mem inLate
    rw [split] at fromFirst
    obtain ⟨untilT, ranT, -⟩ := fromFirst.split_at
    obtain ⟨lockedT, fellT⟩ := locked.run reachable untilT
    obtain ⟨-, fellOne⟩ := lockedT.step (reachable.extend untilT) ranT
    obtain ⟨left, atLeft, -⟩ := fellT.budget i p budget listed budgetFirst
    obtain ⟨leftAfter, atLeftAfter, fellBy⟩ := fellOne.budget i p left listed atLeft
    refine ⟨fellT.root.trans rootFirst, (fellOne.root.trans fellT.root).trans rootFirst, left,
      leftAfter, atLeft, atLeftAfter, ?_⟩
    rw [drawn_single] at fellBy
    exact fellBy

/-- In the small deployment alice's 234 cost the pool 292, so someone has accepted. -/
theorem smallDeployment_draws_bounded :
    ∃ steps w mod, SystemRun SmallDeployment.platform steps w ∧
      w.modules SmallDeployment.module = some mod ∧
      (mod.incidents 1).pools[0]? = some SmallDeployment.pool ∧
      drawn SmallDeployment.module 1 SmallDeployment.pool steps = 292 ∧
      ¬ ∀ t ∈ steps, ¬ Accepts SmallDeployment.module 1 t := by
  have passed : endsIn (step SmallDeployment.platform) SmallDeployment.start
      (SmallDeployment.stake ++ SmallDeployment.claim ++ SmallDeployment.settle ++
        SmallDeployment.payout)
      (fun steps w => decide (drawn SmallDeployment.module 1 SmallDeployment.pool steps = 292) &&
        (w.modules SmallDeployment.module).any fun mod =>
          (mod.incidents 1).pools[0]? = some SmallDeployment.pool) = true := by
    decide +kernel
  obtain ⟨steps, w, run, checked⟩ := endsIn_isRun _ _ passed
  rw [Bool.and_eq_true, decide_eq_true_eq] at checked
  obtain ⟨mod, present, listed⟩ := (Option.any_eq_true _ _).mp checked.2
  have listed := of_decide_eq_true listed
  have systemRun : SystemRun SmallDeployment.platform steps w := ⟨_, _, _, _, _, run⟩
  refine ⟨steps, w, mod, systemRun, present, listed, checked.1, ?_⟩
  intro unaccepted
  have none := (incident_draws_bounded systemRun present 0 listed).1 unaccepted
  rw [none] at checked
  exact absurd checked.1 (by decide)

end Runs

end Usd8Core.Insurance
