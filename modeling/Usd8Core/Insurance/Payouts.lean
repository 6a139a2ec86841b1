import Usd8Core.Insurance.ModuleCalls
import Usd8Core.Pool.PoolCalls

/-!
# Finalizing a claim against a committed root

`finalizeClaim` in three parts: the escrow is released, an accepted payout is
drawn from the incident's pools within their budgets, and the claim is closed.
-/

set_option autoImplicit false

namespace Usd8Core.Insurance

open Usd8Core.Lib.ByteWords
open Usd8Core.Lib.CheckedCall
open Usd8Core.Lib.FiniteLedger
open Usd8Core.Chain
open Usd8Core.Pool

/-! ## The checks -/

structure RowChecked (platform : Platform) (w : World) (m sender : Address)
    (mod : DefiInsurance) (claimId : Nat) (acceptPayout : Bool) (row : PayoutRow)
    (proof : List Hash) : Prop where
  afterDeadline : (mod.incidents (mod.claims claimId).incidentId).phaseDeadline < w.now
  inWindow : acceptPayout = true →
    w.now ≤ (mod.incidents (mod.claims claimId).incidentId).phaseDeadline +
      mod.incidentPhaseWindow (mod.claims claimId).incidentId
  unpaused : acceptPayout = true → w.registry.paused m = false
  lengths : row.amounts.length = (mod.incidents (mod.claims claimId).incidentId).pools.length
  proven : merkleProofVerify platform proof
    (mod.incidents (mod.claims claimId).incidentId).root
    (settlementLeaf platform (mod.claims claimId).incidentId claimId (mod.claims claimId).user
      row) = true
  boosters : row.eligibleBoosterAmount ≤ (mod.claims claimId).boosterAmount
  caller : sender = (mod.claims claimId).user ∨ (acceptPayout = false ∧ row.eligible = false)

/-- The storage after the escrow of a claim was released. -/
def releasedStorage (mod : DefiInsurance) (claimId : Nat) : DefiInsurance :=
  { World.releasedModule mod claimId
      (mod.escrowedInsuredTokens
        (mod.incidents (mod.claims claimId).incidentId).insuredToken -
          (mod.claims claimId).insuredTokenAmount) with
    escrowedClaimBonds := mod.escrowedClaimBonds - (mod.claims claimId).bondAmount }

/-- The escrow of a claim handed out: at most its tokens, its bond and its boosters leave. -/
structure Released (m : Address) (w released : World) (mod : DefiInsurance) (claimId : Nat)
    (row : PayoutRow) : Prop where
  eligible_le : row.eligibleAmount ≤ (mod.claims claimId).insuredTokenAmount
  tokensHeld : (mod.claims claimId).insuredTokenAmount ≤ mod.escrowedInsuredTokens
    (mod.incidents (mod.claims claimId).incidentId).insuredToken
  bondHeld : (mod.claims claimId).bondAmount ≤ mod.escrowedClaimBonds
  outcome : ∃ refund recipient refunded erc20 erc1155,
    refund ≤ (mod.claims claimId).insuredTokenAmount ∧
    ((refund = 0 ∧ refunded = w.erc20) ∨
      erc20Transfer w.erc20 (mod.incidents (mod.claims claimId).incidentId).insuredToken m
        (mod.claims claimId).user refund = .ok refunded) ∧
    erc20Transfer refunded w.registry.usd8 m recipient (mod.claims claimId).bondAmount =
      .ok erc20 ∧
    BoostersResolved m w (mod.claims claimId) erc1155 ∧
    released = ({ w with erc20 := erc20, erc1155 := erc1155 } : World).setModule m
      (releasedStorage mod claimId)

section Release

variable {platform : Platform} {m sender : Address} {w next : World}

theorem checkRow_ok (mod : DefiInsurance) (claimId : Nat) (acceptPayout : Bool)
    (row : PayoutRow) (proof : List Hash) (result : Unit)
    (run : w.checkRow platform m sender mod claimId acceptPayout row proof = .ok result) :
    RowChecked platform w m sender mod claimId acceptPayout row proof := by
  unfold World.checkRow at run
  obtain ⟨_, afterDeadline, run⟩ := (bind_ok_iff _ _ _).mp run
  obtain ⟨_, window, run⟩ := (bind_ok_iff _ _ _).mp run
  obtain ⟨_, lengths, run⟩ := (bind_ok_iff _ _ _).mp run
  obtain ⟨_, proven, run⟩ := (bind_ok_iff _ _ _).mp run
  obtain ⟨_, boosters, run⟩ := (bind_ok_iff _ _ _).mp run
  obtain ⟨expected, -, run⟩ := (bind_ok_iff _ _ _).mp run
  obtain ⟨_, -, caller⟩ := (bind_ok_iff _ _ _).mp run
  have windowFacts : acceptPayout = true →
      w.now ≤ (mod.incidents (mod.claims claimId).incidentId).phaseDeadline +
        mod.incidentPhaseWindow (mod.claims claimId).incidentId ∧
      w.registry.paused m = false := by
    intro accepts
    unfold World.checkPayoutWindow at window
    rw [if_pos accepts] at window
    obtain ⟨_, inWindow, unpaused⟩ := (bind_ok_iff _ _ _).mp window
    exact ⟨Nat.le_of_not_lt ((revertIf_ok_iff _ _ _).mp inWindow),
      by simpa using (revertIf_ok_iff _ _ _).mp unpaused⟩
  refine ⟨Nat.lt_of_not_le ((revertIf_ok_iff _ _ _).mp afterDeadline),
    fun accepts => (windowFacts accepts).1, fun accepts => (windowFacts accepts).2,
    not_not.mp ((revertIf_ok_iff _ _ _).mp lengths),
    by simpa using (revertIf_ok_iff _ _ _).mp proven,
    Nat.le_of_not_lt ((revertIf_ok_iff _ _ _).mp boosters), ?_⟩
  have allowed := (revertIf_ok_iff _ _ _).mp caller
  by_cases owner : sender = (mod.claims claimId).user
  · exact Or.inl owner
  · right
    have neither : ¬ (acceptPayout = true ∨ row.eligible = true) :=
      fun either => allowed ⟨owner, either⟩
    rw [not_or] at neither
    exact ⟨by simpa using neither.1, by simpa using neither.2⟩

theorem releaseClaim_ok (mod : DefiInsurance) (claimId : Nat) (paid : Bool) (row : PayoutRow)
    (bounded : row.eligibleBoosterAmount ≤ (mod.claims claimId).boosterAmount)
    (run : w.releaseClaim m mod claimId paid row = .ok next) :
    Released m w next mod claimId row := by
  unfold World.releaseClaim at run
  obtain ⟨_, eligible, run⟩ := (bind_ok_iff _ _ _).mp run
  obtain ⟨escrowed, escrowedRun, run⟩ := (bind_ok_iff _ _ _).mp run
  obtain ⟨refunded, refundedRun, run⟩ := (bind_ok_iff _ _ _).mp run
  obtain ⟨boosted, boostedRun, run⟩ := (bind_ok_iff _ _ _).mp run
  obtain ⟨tokensHeld, escrowedEq⟩ := (checkedSub_ok_iff _ _ _).mp escrowedRun
  subst escrowedEq
  generalize refundEq : (if paid = true then
      (mod.claims claimId).insuredTokenAmount - row.eligibleAmount
      else (mod.claims claimId).insuredTokenAmount) = refund at refundedRun
  have refundLe : refund ≤ (mod.claims claimId).insuredTokenAmount := by
    rw [← refundEq]
    split
    · exact Nat.sub_le _ _
    · exact le_rfl
  have refundedOutcome : ∃ ledger, ((refund = 0 ∧ ledger = w.erc20) ∨
      erc20Transfer w.erc20 (mod.incidents (mod.claims claimId).incidentId).insuredToken m
        (mod.claims claimId).user refund = .ok ledger) ∧
      refunded = ({ w with erc20 := ledger } : World).setModule m
        (World.releasedModule mod claimId (mod.escrowedInsuredTokens
          (mod.incidents (mod.claims claimId).incidentId).insuredToken -
            (mod.claims claimId).insuredTokenAmount)) := by
    rcases (ite_ok_iff _ _ _ _).mp refundedRun with ⟨-, ran⟩ | ⟨nothing, same⟩
    · obtain ⟨ledger, transferred, refundedEq⟩ := (transferErc20_ok_iff _ _ _ _).mp ran
      exact ⟨ledger, Or.inr transferred, refundedEq⟩
    · exact ⟨w.erc20, Or.inl ⟨not_not.mp nothing, rfl⟩, ((pure_ok_iff _ _).mp same).symm⟩
  obtain ⟨ledger, moved, refundedEq⟩ := refundedOutcome
  have burnBound : (if paid = true then row.eligibleBoosterAmount else 0) ≤
      (mod.claims claimId).boosterAmount := by
    split
    · exact bounded
    · exact Nat.zero_le _
  obtain ⟨erc1155, boosters, boostedEq⟩ := resolveBoosters_ok _ _ _ burnBound boostedRun
  subst refundedEq
  subst boostedEq
  obtain ⟨bondHeld, erc20, bondTransferred, nextEq⟩ := resolveClaimBond_ok
    (w := ({ w with erc20 := ledger, erc1155 := erc1155 } : World).setModule m
      (World.releasedModule mod claimId (mod.escrowedInsuredTokens
        (mod.incidents (mod.claims claimId).incidentId).insuredToken -
          (mod.claims claimId).insuredTokenAmount)))
    _ (mod.claims claimId) _ (setModule_self _) run
  refine ⟨Nat.le_of_not_lt ((revertIf_ok_iff _ _ _).mp eligible), tokensHeld, bondHeld, refund, _,
    ledger, erc20, erc1155, refundLe, moved, bondTransferred, ⟨boosters.held⟩, ?_⟩
  rw [nextEq]
  exact setModule_setModule (w := { w with erc20 := erc20, erc1155 := erc1155 }) _
    (releasedStorage mod claimId)

end Release

/-! ## Drawing from the pools -/

/-- The module with other budgets on one incident. -/
def withBudget (mod : DefiInsurance) (incidentId : Nat) (budget : List Nat) : DefiInsurance :=
  mod.setIncident incidentId { mod.incidents incidentId with poolBudget := budget }

def claimPaidAmount : Event → Nat
  | .claimPaid _ amount => amount
  | _ => 0

/-- Everything the pool at `p` has paid on claims so far. -/
def claimsPaid (w : World) (p : Address) : Nat := ((eventsOf w p).map claimPaidAmount).sum

/-- One `payClaim`: the amount leaves the pool and its accounts. -/
structure PoolPaid (m p : Address) (w next : World) (amount : Nat) : Prop where
  block : next.block = w.block
  registry : next.registry = w.registry
  modules : next.modules = w.modules
  erc1155 : next.erc1155 = w.erc1155
  paid : claimsPaid next p = claimsPaid w p + amount
  otherPaid : ∀ other, other ≠ p → claimsPaid next other = claimsPaid w other
  tokens : ∀ token account, account ≠ p → w.erc20 token account ≤ next.erc20 token account
  otherPools : ∀ other, other ≠ p → next.pools other = w.pools other
  pool : ∃ before, w.pools p = some before ∧ amount ≤ before.accountedAssets ∧
    next.pools p = some { before with accountedAssets := before.accountedAssets - amount }

section Drawing

variable {platform : Platform} {m p : Address} {w next : World}

theorem claimsPaid_emit (emitter account : Address) (event : Event) :
    claimsPaid (w.emit emitter event) account =
      claimsPaid w account + if emitter = account then claimPaidAmount event else 0 := by
  unfold claimsPaid
  rw [eventsOf_emit, List.map_append, List.sum_append]
  split <;> simp

theorem claimsPaid_emitAll (emitter account : Address) (events : List Event) :
    claimsPaid (w.emitAll emitter events) account = claimsPaid w account +
      if emitter = account then (events.map claimPaidAmount).sum else 0 := by
  unfold claimsPaid
  rw [eventsOf_emitAll, List.map_append, List.sum_append]
  split <;> simp

theorem claimPaidAmount_moduleEvent (event : Event) (own : ModuleEvent event) :
    claimPaidAmount event = 0 := by
  cases event <;> first | rfl | exact absurd own id

/-- A module's own log is not a payment of a pool. -/
theorem claimsPaid_emitOwn (account : Address) (event : Event) (own : ModuleEvent event) :
    claimsPaid (w.emit m event) account = claimsPaid w account := by
  rw [claimsPaid_emit, claimPaidAmount_moduleEvent event own, ite_self, Nat.add_zero]

theorem payClaim_poolPaid (recipient : Address) (amount : Nat)
    (run : w.callPool p m (.payClaim recipient amount) = .ok next) :
    PoolPaid m p w next amount := by
  obtain ⟨pool, tx, present, executed, nextEq⟩ := callPool_ok m _ run
  obtain ⟨sameBlock, sameRegistry, sameModules, sameErc1155, otherPools⟩ := callPool_frame m _ run
  obtain ⟨_, -, payRun⟩ := (bind_ok_iff _ _ _).mp executed
  have outcome := payClaim_ok _ _ tx recipient amount payRun
  have poolsEq : next.pools p = some tx.pool := by
    rw [nextEq, emitAll_eq]
    exact Function.update_self ..
  have erc20Eq : next.erc20 = tx.erc20 := by rw [nextEq, emitAll_eq]
  have paidEq : ∀ account, claimsPaid next account = claimsPaid w account +
      if p = account then (tx.events.map claimPaidAmount).sum else 0 := by
    intro account
    rw [nextEq, claimsPaid_emitAll]
    rfl
  have facts : (tx.events.map claimPaidAmount).sum = amount ∧
      (∀ token account, account ≠ p → w.erc20 token account ≤ tx.erc20 token account) ∧
      amount ≤ pool.accountedAssets ∧
      tx.pool = { pool with accountedAssets := pool.accountedAssets - amount } := by
    rcases outcome.paid with ⟨zero, txEq⟩ | ⟨-, enough, transferred, poolEq, eventsEq⟩
    · subst zero txEq
      exact ⟨rfl, fun _ _ _ => le_rfl, Nat.zero_le _, rfl⟩
    · refine ⟨by rw [eventsEq]; rfl, ?_, enough, poolEq⟩
      intro token account differ
      exact erc20Transfer_le _ _ _ _ _ _ transferred token account differ
  obtain ⟨eventSum, tokens, enough, poolEq⟩ := facts
  refine ⟨sameBlock, sameRegistry, sameModules, sameErc1155, ?_, ?_, ?_, otherPools, pool, present,
    enough, by rw [poolsEq, poolEq]⟩
  · rw [paidEq, if_pos rfl, eventSum]
  · intro other differ
    rw [paidEq, if_neg (Ne.symm differ), Nat.add_zero]
  · intro token account differ
    rw [erc20Eq]
    exact tokens token account differ

theorem PoolPaid.trans {middle : World} {first second : Nat} (paid : PoolPaid m p w middle first)
    (paidAgain : PoolPaid m p middle next second) : PoolPaid m p w next (first + second) := by
  obtain ⟨before, present, enough, between⟩ := paid.pool
  obtain ⟨atMiddle, presentMiddle, enoughMiddle, after⟩ := paidAgain.pool
  cases between.symm.trans presentMiddle
  have left : second ≤ before.accountedAssets - first := enoughMiddle
  refine ⟨paidAgain.block.trans paid.block, paidAgain.registry.trans paid.registry,
    paidAgain.modules.trans paid.modules, paidAgain.erc1155.trans paid.erc1155, ?_, ?_, ?_, ?_,
    before, present, by omega, ?_⟩
  · rw [paidAgain.paid, paid.paid, Nat.add_assoc]
  · intro other differ
    rw [paidAgain.otherPaid other differ, paid.otherPaid other differ]
  · intro token account differ
    exact (paid.tokens token account differ).trans (paidAgain.tokens token account differ)
  · intro other differ
    rw [paidAgain.otherPools other differ, paid.otherPools other differ]
  · rw [after, Nat.sub_sub]

/-- A log of the module after a payment. -/
theorem PoolPaid.emit {amount : Nat} (paid : PoolPaid m p w next amount) (event : Event)
    (own : ModuleEvent event) : PoolPaid m p w (next.emit m event) amount := by
  refine ⟨paid.block, paid.registry, paid.modules, paid.erc1155, ?_, ?_, paid.tokens,
    paid.otherPools, paid.pool⟩
  · rw [claimsPaid_emitOwn p event own, paid.paid]
  · intro other differ
    rw [claimsPaid_emitOwn other event own, paid.otherPaid other differ]

/-- What one iteration of the payout loop does. -/
structure AmountPaid (m : Address) (incidentId : Nat) (amounts : List Nat) (i : Nat)
    (w next : World) (mod : DefiInsurance) (amount : Nat) : Prop where
  amountEq : amounts[i]? = some amount
  paid : (amount = 0 ∧ next = w) ∨ ∃ gross remaining pool middle,
    gross = amount * bpsDenominator /
      (bpsDenominator - (mod.incidents incidentId).protocolFeeShareBps) ∧
    (mod.incidents incidentId).poolBudget[i]? = some remaining ∧ gross ≤ remaining ∧
    (mod.incidents incidentId).pools[i]? = some pool ∧
    middle = w.setModule m (withBudget mod incidentId
      ((mod.incidents incidentId).poolBudget.set i (remaining - gross))) ∧
    PoolPaid m pool middle next gross

theorem payProtocolFee_ok (incidentId : Nat) (pool feeReceiver : Address) (protocolFee : Nat)
    {paid : World} {amount : Nat} (first : PoolPaid m pool w paid amount)
    (run : paid.payProtocolFee m incidentId pool feeReceiver protocolFee = .ok next) :
    PoolPaid m pool w next (amount + protocolFee) := by
  unfold World.payProtocolFee at run
  rcases (ite_ok_iff _ _ _ _).mp run with ⟨-, run⟩ | ⟨zero, result⟩
  · obtain ⟨feePaid, feeRun, result⟩ := (bind_ok_iff _ _ _).mp run
    cases (pure_ok_iff _ _).mp result
    exact (first.trans (payClaim_poolPaid feeReceiver protocolFee feeRun)).emit _ trivial
  · cases (pure_ok_iff _ _).mp result
    rw [not_not.mp zero, Nat.add_zero]
    exact first

theorem payClaimAmount_ok (incidentId : Nat) (claimant feeReceiver : Address)
    (amounts : List Nat) (i : Nat) (mod : DefiInsurance) (present : w.modules m = some mod)
    (run : World.payClaimAmount m incidentId claimant feeReceiver amounts w i = .ok next) :
    ∃ amount, AmountPaid m incidentId amounts i w next mod amount := by
  unfold World.payClaimAmount at run
  obtain ⟨amount, amountRun, run⟩ := (bind_ok_iff _ _ _).mp run
  refine ⟨amount, (orRevert_ok_iff _ _ _).mp amountRun, ?_⟩
  rcases (ite_ok_iff _ _ _ _).mp run with ⟨zero, result⟩ | ⟨-, run⟩
  · exact Or.inl ⟨zero, ((pure_ok_iff _ _).mp result).symm⟩
  · obtain ⟨found, foundRun, run⟩ := (bind_ok_iff _ _ _).mp run
    obtain ⟨net, netRun, run⟩ := (bind_ok_iff _ _ _).mp run
    obtain ⟨gross, grossRun, run⟩ := (bind_ok_iff _ _ _).mp run
    obtain ⟨remaining, remainingRun, run⟩ := (bind_ok_iff _ _ _).mp run
    obtain ⟨_, within, run⟩ := (bind_ok_iff _ _ _).mp run
    obtain ⟨pool, poolRun, run⟩ := (bind_ok_iff _ _ _).mp run
    obtain ⟨paid, paidRun, run⟩ := (bind_ok_iff _ _ _).mp run
    obtain ⟨protocolFee, feeRun, run⟩ := (bind_ok_iff _ _ _).mp run
    have sameMod : found = mod :=
      Option.some.inj (((getModule_ok_iff found).mp foundRun).symm.trans present)
    subst sameMod
    obtain ⟨-, netEq⟩ := (checkedSub_ok_iff _ _ _).mp netRun
    obtain ⟨-, -, grossEq⟩ := (mulDiv_ok_iff _ _ _ _).mp grossRun
    obtain ⟨amountLe, feeEq⟩ := (checkedSub_ok_iff _ _ _).mp feeRun
    have both := payProtocolFee_ok incidentId pool feeReceiver protocolFee
      (payClaim_poolPaid claimant amount paidRun) run
    have whole : amount + protocolFee = gross := by omega
    rw [whole] at both
    exact Or.inr ⟨gross, remaining, pool, _, by rw [grossEq, netEq],
      (orRevert_ok_iff _ _ _).mp remainingRun,
      Nat.le_of_not_lt ((revertIf_ok_iff _ _ _).mp within), (orRevert_ok_iff _ _ _).mp poolRun,
      rfl, both⟩

end Drawing

/-! ## The payout loop -/

/-- Between `w` and `next` each pool of the incident has paid exactly what its budget
has lost, and nothing else of the module changed. -/
structure Drawn (m : Address) (incidentId : Nat) (w next : World) (mod : DefiInsurance)
    (budget : List Nat) : Prop where
  stored : next.modules m = some (withBudget mod incidentId budget)
  length : budget.length = (mod.incidents incidentId).poolBudget.length
  drawn : (mod.incidents incidentId).pools.Nodup → ∀ (i : Nat) (p : Address) (before : Nat),
    (mod.incidents incidentId).pools[i]? = some p →
    (mod.incidents incidentId).poolBudget[i]? = some before →
    ∃ left, budget[i]? = some left ∧ left + claimsPaid next p = before + claimsPaid w p
  tokens : (∀ p, (w.pools p).isSome = true → p ≠ m) →
    ∀ token, w.erc20 token m ≤ next.erc20 token m
  pools : ∀ p, (next.pools p).isSome = (w.pools p).isSome
  totals : ∀ p pool, w.pools p = some pool → ∃ after, next.pools p = some after ∧
    after.accountedAssets + claimsPaid next p = pool.accountedAssets + claimsPaid w p
  erc1155 : next.erc1155 = w.erc1155
  registry : next.registry = { w.registry with scoreSpent := next.registry.scoreSpent }
  block : next.block = w.block

section Loop

variable {platform : Platform} {m : Address} {w next : World} {mod : DefiInsurance}
  {incidentId : Nat}

theorem withBudget_incident (mod : DefiInsurance) (incidentId : Nat) (budget : List Nat) :
    (withBudget mod incidentId budget).incidents incidentId =
      { mod.incidents incidentId with poolBudget := budget } := Function.update_self ..

theorem setIncident_setIncident (mod : DefiInsurance) (incidentId : Nat)
    (first second : Incident) :
    (mod.setIncident incidentId first).setIncident incidentId second =
      mod.setIncident incidentId second := by
  unfold DefiInsurance.setIncident
  dsimp only
  rw [Function.update_idem]

theorem withBudget_withBudget (mod : DefiInsurance) (incidentId : Nat)
    (first second : List Nat) :
    withBudget (withBudget mod incidentId first) incidentId second =
      withBudget mod incidentId second := by
  rw [withBudget, withBudget_incident]
  exact setIncident_setIncident mod incidentId _ _

theorem withBudget_same (mod : DefiInsurance) (incidentId : Nat) :
    withBudget mod incidentId (mod.incidents incidentId).poolBudget = mod := by
  unfold withBudget DefiInsurance.setIncident
  rw [Function.update_eq_self]

theorem Drawn.refl (present : w.modules m = some mod) :
    Drawn m incidentId w w mod (mod.incidents incidentId).poolBudget :=
  ⟨by rw [withBudget_same]; exact present, rfl,
    fun _ _ _ before _ budget => ⟨before, budget, rfl⟩, fun _ _ => le_rfl, fun _ => rfl,
    fun _ pool present => ⟨pool, present, rfl⟩, rfl, rfl, rfl⟩

/-- One more iteration. -/
theorem Drawn.amountPaid {state : World} {budget amounts : List Nat} (i amount : Nat)
    (drawn : Drawn m incidentId w state mod budget)
    (paid : AmountPaid m incidentId amounts i state next (withBudget mod incidentId budget)
      amount) : ∃ after, Drawn m incidentId w next mod after := by
  rcases paid.paid with ⟨-, nextEq⟩ | ⟨gross, remaining, pool, middle, -, remainingEq, within,
    poolEq, middleEq, poolPaid⟩
  · subst nextEq
    exact ⟨budget, drawn⟩
  · rw [withBudget_incident] at remainingEq poolEq middleEq
    have storedMiddle : middle = state.setModule m
        (withBudget mod incidentId (budget.set i (remaining - gross))) := by
      rw [middleEq, withBudget_withBudget]
    have poolPresent : (state.pools pool).isSome = true := by
      obtain ⟨before, presentBefore, -⟩ := poolPaid.pool
      rw [storedMiddle] at presentBefore
      change state.pools pool = some before at presentBefore
      rw [presentBefore]
      rfl
    have paidState : ∀ account, claimsPaid middle account = claimsPaid state account := by
      intro account
      rw [storedMiddle]
      rfl
    refine ⟨budget.set i (remaining - gross), ?_, ?_, ?_, ?_, ?_, ?_, ?_, ?_, ?_⟩
    · rw [poolPaid.modules, storedMiddle]
      exact setModule_self _
    · rw [List.length_set, drawn.length]
    · intro distinct j p before atJ budgetJ
      obtain ⟨left, leftEq, leftPaid⟩ := drawn.drawn distinct j p before atJ budgetJ
      by_cases same : j = i
      · subst same
        have samePool : p = pool := Option.some.inj (atJ.symm.trans poolEq)
        have sameLeft : left = remaining := Option.some.inj (leftEq.symm.trans remainingEq)
        subst samePool sameLeft
        refine ⟨left - gross, ?_, ?_⟩
        · exact List.getElem?_set_self (List.getElem?_eq_some_iff.mp leftEq).1
        · rw [poolPaid.paid, paidState]
          omega
      · have otherPool : p ≠ pool := by
          rintro rfl
          exact same ((List.getElem?_inj (List.getElem?_eq_some_iff.mp atJ).1 distinct).mp
            (atJ.trans poolEq.symm))
        refine ⟨left, ?_, ?_⟩
        · rw [List.getElem?_set_ne (Ne.symm same)]
          exact leftEq
        · rw [poolPaid.otherPaid p otherPool, paidState]
          exact leftPaid
    · intro apart token
      have notModule : m ≠ pool := by
        rw [drawn.pools] at poolPresent
        exact Ne.symm (apart pool poolPresent)
      refine (drawn.tokens apart token).trans ?_
      have more := poolPaid.tokens token m notModule
      rw [storedMiddle] at more
      exact more
    · intro p
      by_cases same : p = pool
      · subst same
        obtain ⟨before, -, -, after⟩ := poolPaid.pool
        rw [after, ← drawn.pools p, poolPresent]
        rfl
      · rw [poolPaid.otherPools p same, storedMiddle]
        exact drawn.pools p
    · intro p before present
      obtain ⟨between, presentBetween, total⟩ := drawn.totals p before present
      by_cases same : p = pool
      · subst same
        obtain ⟨paying, payingPresent, enough, after⟩ := poolPaid.pool
        rw [storedMiddle] at payingPresent
        cases presentBetween.symm.trans payingPresent
        refine ⟨_, after, ?_⟩
        rw [poolPaid.paid, paidState]
        change between.accountedAssets - gross + _ = _
        omega
      · refine ⟨between, ?_, by rw [poolPaid.otherPaid p same, paidState, total]⟩
        rw [poolPaid.otherPools p same, storedMiddle]
        exact presentBetween
    · rw [poolPaid.erc1155, storedMiddle]
      exact drawn.erc1155
    · rw [poolPaid.registry, storedMiddle]
      exact drawn.registry
    · rw [poolPaid.block, storedMiddle]
      exact drawn.block

theorem payClaimAmounts_drawn (claimant : Address) (amounts : List Nat)
    (present : w.modules m = some mod)
    (run : w.payClaimAmounts m incidentId claimant amounts = .ok next) :
    ∃ budget, Drawn m incidentId w next mod budget := by
  unfold World.payClaimAmounts at run
  obtain ⟨_, -, run⟩ := (bind_ok_iff _ _ _).mp run
  refine foldlM_preserves _ (fun state => ∃ budget, Drawn m incidentId w state mod budget) ?_ _ w
    next ⟨_, Drawn.refl present⟩ run
  rintro state i after ⟨budget, drawn⟩ ran
  obtain ⟨amount, paid⟩ :=
    payClaimAmount_ok incidentId claimant _ amounts i _ drawn.stored ran
  exact drawn.amountPaid i amount paid

theorem spendScore_ok (claimant : Address) (scoreSpent : Nat) {budget : List Nat} {paid : World}
    (drawn : Drawn m incidentId w paid mod budget)
    (run : paid.spendScore platform m incidentId claimant scoreSpent = .ok next) :
    Drawn m incidentId w next mod budget := by
  unfold World.spendScore at run
  rcases (ite_ok_iff _ _ _ _).mp run with ⟨-, run⟩ | ⟨-, result⟩
  · obtain ⟨⟨registry, event⟩, recorded, result⟩ := (bind_ok_iff _ _ _).mp run
    obtain ⟨-, eventEq, registryEq⟩ := recordScoreSpent_ok _ registry m claimant scoreSpent event
      recorded
    cases (pure_ok_iff _ _).mp result
    have samePaid : ∀ account,
        claimsPaid (({ paid.emit m (.scoreSpent claimant scoreSpent incidentId) with
          registry := registry } : World).emit platform.registryAddress event) account =
          claimsPaid paid account := by
      intro account
      rw [claimsPaid_emit, eventEq]
      have own : claimsPaid (paid.emit m (.scoreSpent claimant scoreSpent incidentId)) account =
          claimsPaid paid account := claimsPaid_emitOwn account _ trivial
      rw [show claimPaidAmount (.scoreSpentRecorded claimant scoreSpent _) = 0 from rfl, ite_self,
        Nat.add_zero]
      exact own
    refine ⟨drawn.stored, drawn.length, ?_, drawn.tokens, drawn.pools, ?_, drawn.erc1155, ?_,
      drawn.block⟩
    · intro distinct i p before atI budgetI
      rw [samePaid]
      exact drawn.drawn distinct i p before atI budgetI
    · intro p pool present
      rw [samePaid]
      exact drawn.totals p pool present
    · have first := drawn.registry
      change registry = { w.registry with scoreSpent := registry.scoreSpent }
      rw [registryEq]
      change { paid.registry with scoreSpent := registry.scoreSpent } = _
      rw [first]
  · cases (pure_ok_iff _ _).mp result
    exact drawn

theorem payAccepted_drawn (claimant : Address) (row : PayoutRow)
    (present : w.modules m = some mod)
    (run : w.payAccepted platform m incidentId claimant row = .ok next) :
    ∃ budget, Drawn m incidentId w next mod budget := by
  unfold World.payAccepted at run
  obtain ⟨paid, paidRun, run⟩ := (bind_ok_iff _ _ _).mp run
  obtain ⟨budget, drawn⟩ := payClaimAmounts_drawn claimant row.amounts present paidRun
  exact ⟨budget, spendScore_ok claimant row.scoreSpent drawn run⟩

end Loop

/-! ## The whole of `finalizeClaim` -/

/-- The storage after a claim was settled with the given budgets left. -/
def finalizedStorage (mod : DefiInsurance) (claimId now : Nat) (budget : List Nat) :
    DefiInsurance :=
  (releasedStorage mod claimId).setIncident (mod.claims claimId).incidentId
    (World.closedIncident
      { mod.incidents (mod.claims claimId).incidentId with poolBudget := budget }
      ((mod.incidents (mod.claims claimId).incidentId).unresolvedClaims - 1) now)

/-- A claim finalized against the committed root. -/
structure Finalized (platform : Platform) (m sender : Address) (w next : World)
    (mod : DefiInsurance) (claimId : Nat) (acceptPayout : Bool) (row : PayoutRow)
    (proof : List Hash) : Prop where
  present : w.modules m = some mod
  filed : (mod.claims claimId).user ≠ Address.zero
  unresolved : (mod.claims claimId).resolved = false
  registered : w.registry.defiInsurance = m
  hasRoot : (mod.incidents (mod.claims claimId).incidentId).root ≠ Hash.zero
  checked : RowChecked platform w m sender mod claimId acceptPayout row proof
  counted : 1 ≤ (mod.incidents (mod.claims claimId).incidentId).unresolvedClaims
  outcome : ∃ released paid budget event, Released m w released mod claimId row ∧
    (acceptPayout = true → row.eligible = true →
      released.payAccepted platform m (mod.claims claimId).incidentId (mod.claims claimId).user
        row = .ok paid) ∧
    (acceptPayout = false ∨ row.eligible = false → paid = released) ∧
    Drawn m (mod.claims claimId).incidentId released paid (releasedStorage mod claimId) budget ∧
    next = (paid.setModule m (finalizedStorage mod claimId w.now budget)).emit m event ∧
    (event = .claimFinalized claimId (mod.claims claimId).user ∨
      ∃ eligible, event = .claimDeclined claimId (mod.claims claimId).user eligible)

section Finalizing

variable {platform : Platform} {m sender : Address} {w next : World}

theorem releasedStorage_incidents (mod : DefiInsurance) (claimId : Nat) :
    (releasedStorage mod claimId).incidents = mod.incidents := rfl

theorem settleRow_ok (mod : DefiInsurance) (claimId : Nat) (acceptPayout : Bool)
    (row : PayoutRow) (proof : List Hash) (present : w.modules m = some mod)
    (filed : (mod.claims claimId).user ≠ Address.zero)
    (unresolved : (mod.claims claimId).resolved = false)
    (registered : w.registry.defiInsurance = m)
    (hasRoot : (mod.incidents (mod.claims claimId).incidentId).root ≠ Hash.zero)
    (run : w.settleRow platform m sender mod claimId acceptPayout row proof = .ok next) :
    Finalized platform m sender w next mod claimId acceptPayout row proof := by
  unfold World.settleRow at run
  obtain ⟨_, checkedRun, run⟩ := (bind_ok_iff _ _ _).mp run
  obtain ⟨released, releasedRun, run⟩ := (bind_ok_iff _ _ _).mp run
  obtain ⟨paid, paidRun, run⟩ := (bind_ok_iff _ _ _).mp run
  have checked := checkRow_ok mod claimId acceptPayout row proof _ checkedRun
  have release := releaseClaim_ok mod claimId _ row checked.boosters releasedRun
  have releasedPresent : released.modules m = some (releasedStorage mod claimId) := by
    obtain ⟨_, _, _, _, _, -, -, -, -, releasedEq⟩ := release.outcome
    rw [releasedEq]
    exact setModule_self _
  have payment : (acceptPayout = true → row.eligible = true →
      released.payAccepted platform m (mod.claims claimId).incidentId (mod.claims claimId).user
        row = .ok paid) ∧ (acceptPayout = false ∨ row.eligible = false → paid = released) ∧
      ∃ budget, Drawn m (mod.claims claimId).incidentId released paid
        (releasedStorage mod claimId) budget := by
    rcases (ite_ok_iff _ _ _ _).mp paidRun with ⟨both, ran⟩ | ⟨notBoth, same⟩
    · rw [Bool.and_eq_true] at both
      refine ⟨fun _ _ => ran, ?_, payAccepted_drawn _ row releasedPresent ran⟩
      rintro (declined | ineligible)
      · rw [both.1] at declined
        cases declined
      · rw [both.2] at ineligible
        cases ineligible
    · have paidEq := (pure_ok_iff _ _).mp same
      subst paidEq
      refine ⟨?_, fun _ => rfl, _, Drawn.refl releasedPresent⟩
      intro accepts eligible
      rw [accepts, eligible] at notBoth
      exact absurd rfl notBoth
  obtain ⟨whenPaid, whenNot, budget, drawn⟩ := payment
  unfold World.closeClaim at run
  obtain ⟨found, foundRun, run⟩ := (bind_ok_iff _ _ _).mp run
  obtain ⟨left, leftRun, result⟩ := (bind_ok_iff _ _ _).mp run
  have foundEq : found = withBudget (releasedStorage mod claimId)
      (mod.claims claimId).incidentId budget :=
    Option.some.inj (((getModule_ok_iff found).mp foundRun).symm.trans drawn.stored)
  have claimEq : found.claims claimId = { mod.claims claimId with resolved := true } := by
    rw [foundEq]
    exact Function.update_self ..
  have incidentEq : found.incidents (mod.claims claimId).incidentId =
      { mod.incidents (mod.claims claimId).incidentId with poolBudget := budget } := by
    rw [foundEq]
    exact withBudget_incident _ _ budget
  obtain ⟨counted, leftEq⟩ := (checkedSub_ok_iff _ _ _).mp leftRun
  rw [claimEq] at counted leftEq result
  dsimp only at counted leftEq result
  rw [incidentEq] at counted leftEq result
  subst leftEq
  have nowEq : paid.now = w.now := by
    obtain ⟨_, _, _, _, _, -, -, -, -, releasedEq⟩ := release.outcome
    rw [World.now, drawn.block, releasedEq]
    rfl
  have storedEq : found.setIncident (mod.claims claimId).incidentId
      (World.closedIncident { mod.incidents (mod.claims claimId).incidentId with
        poolBudget := budget }
        ((mod.incidents (mod.claims claimId).incidentId).unresolvedClaims - 1) paid.now) =
      finalizedStorage mod claimId w.now budget := by
    rw [foundEq, nowEq]
    exact setIncident_setIncident _ _ _ _
  refine ⟨present, filed, unresolved, registered, hasRoot, checked, counted, released, paid,
    budget, if (acceptPayout && row.eligible) = true then
      .claimFinalized claimId (mod.claims claimId).user
      else .claimDeclined claimId (mod.claims claimId).user row.eligible,
    release, whenPaid, whenNot, drawn, ?_, ?_⟩
  · rw [← (pure_ok_iff _ _).mp result, storedEq]
  · split
    · exact Or.inl rfl
    · exact Or.inr ⟨_, rfl⟩

theorem finalizeClaim_ok (claimId : Nat) (acceptPayout : Bool) (row : PayoutRow)
    (proof : List Hash)
    (run : w.finalizeClaim platform m sender claimId acceptPayout row proof = .ok next) :
    ∃ mod, (acceptPayout = false ∧ Recovered m sender w next mod claimId) ∨
      Finalized platform m sender w next mod claimId acceptPayout row proof := by
  unfold World.finalizeClaim at run
  obtain ⟨mod, present, run⟩ := (bind_ok_iff _ _ _).mp run
  obtain ⟨_, filed, run⟩ := (bind_ok_iff _ _ _).mp run
  obtain ⟨_, unresolved, run⟩ := (bind_ok_iff _ _ _).mp run
  have deployed := (getModule_ok_iff mod).mp present
  have isFiled := (revertIf_ok_iff _ _ _).mp filed
  have isUnresolved : (mod.claims claimId).resolved = false := by
    simpa using (revertIf_ok_iff _ _ _).mp unresolved
  refine ⟨mod, ?_⟩
  rcases (ite_ok_iff _ _ _ _).mp run with ⟨noSettlement, run⟩ | ⟨settled, run⟩
  · exact Or.inl (recoverClaim_ok mod claimId acceptPayout deployed isFiled isUnresolved
      noSettlement run)
  · rw [not_or, not_not] at settled
    exact Or.inr (settleRow_ok mod claimId acceptPayout row proof deployed isFiled isUnresolved
      settled.1 settled.2 run)

end Finalizing

/-! ## Every call -/

/-- One module call by what it does. -/
inductive ModuleCase (platform : Platform) (m sender : Address) (w next : World) :
    ModuleCall → Prop
  | configured (call : ModuleCall) (quiet : ∀ claimId acceptPayout row proof,
        call ≠ .finalizeClaim claimId acceptPayout row proof)
      (noCommit : ∀ root poolPayouts, call ≠ .adminCorrectSettlement root poolPayouts)
      (noSettle : ∀ root poolPayouts signature, call ≠ .settleIncident root poolPayouts signature)
      (done : Configured m w next) : ModuleCase platform m sender w next call
  | swept (token recipient : Address) (amount : Nat)
      (done : Swept m w next token recipient amount) :
      ModuleCase platform m sender w next (.sweepToken token recipient)
  | opened (token : Address) (referenceBlock claimDeadline : Nat) (mod : DefiInsurance)
      (done : Opened m w next mod token referenceBlock claimDeadline w.registry.teePcrHash) :
      ModuleCase platform m sender w next (.openClaimIncident token referenceBlock)
  | openedAndFiled (token : Address)
      (insuredTokenAmount scoreToSpend boosterAmount referenceBlock : Nat)
      (signature : List Byte) (middle : World) (mod after : DefiInsurance)
      (claimDeadline escrow : Nat) (scoreFits : scoreToSpend < uintBound 256)
      (opening : Opened m w middle mod token referenceBlock claimDeadline w.registry.teePcrHash)
      (done : Registered platform m sender middle next after token mod.nextIncidentId escrow
        scoreToSpend boosterAmount) :
      ModuleCase platform m sender w next (.fileClaim token insuredTokenAmount scoreToSpend
        boosterAmount referenceBlock signature)
  | filed (token : Address)
      (insuredTokenAmount scoreToSpend boosterAmount referenceBlock : Nat)
      (signature : List Byte) (mod : DefiInsurance) (incidentId escrow : Nat)
      (scoreFits : scoreToSpend < uintBound 256)
      (joinable : Joinable mod w.now incidentId sender token)
      (done : Registered platform m sender w next mod token incidentId escrow scoreToSpend
        boosterAmount) :
      ModuleCase platform m sender w next (.fileClaim token insuredTokenAmount scoreToSpend
        boosterAmount referenceBlock signature)
  | cancelled (mod : DefiInsurance) (incidentId claimId : Nat)
      (done : Cancelled platform m sender w next mod incidentId claimId) :
      ModuleCase platform m sender w next .cancelClaim
  | settled (root : Hash) (poolPayouts : List Nat) (signature : List Byte)
      (mod : DefiInsurance) (incidentId deadline : Nat)
      (done : Committed m w next mod incidentId root poolPayouts deadline) :
      ModuleCase platform m sender w next (.settleIncident root poolPayouts signature)
  | corrected (root : Hash) (poolPayouts : List Nat) (mod : DefiInsurance)
      (incidentId deadline : Nat)
      (done : Committed m w next mod incidentId root poolPayouts deadline) :
      ModuleCase platform m sender w next (.adminCorrectSettlement root poolPayouts)
  | voided (poolPayouts : List Nat) (mod : DefiInsurance) (incidentId : Nat)
      (done : Voided m w next mod incidentId) :
      ModuleCase platform m sender w next (.adminCorrectSettlement Hash.zero poolPayouts)
  | recovered (claimId : Nat) (row : PayoutRow) (proof : List Hash) (mod : DefiInsurance)
      (done : Recovered m sender w next mod claimId) :
      ModuleCase platform m sender w next (.finalizeClaim claimId false row proof)
  | finalized (claimId : Nat) (acceptPayout : Bool) (row : PayoutRow) (proof : List Hash)
      (mod : DefiInsurance)
      (done : Finalized platform m sender w next mod claimId acceptPayout row proof) :
      ModuleCase platform m sender w next (.finalizeClaim claimId acceptPayout row proof)

section Cases

variable {platform : Platform} {m sender : Address} {w next : World}

theorem fileClaim_cases (token : Address)
    (insuredTokenAmount scoreToSpend boosterAmount referenceBlock : Nat) (signature : List Byte)
    (scoreFits : scoreToSpend < uintBound 256)
    (run : w.fileClaim platform m sender token insuredTokenAmount scoreToSpend boosterAmount
      referenceBlock signature = .ok next) :
    ModuleCase platform m sender w next (.fileClaim token insuredTokenAmount scoreToSpend
      boosterAmount referenceBlock signature) := by
  unfold World.fileClaim at run
  obtain ⟨_, -, run⟩ := (bind_ok_iff _ _ _).mp run
  obtain ⟨_, -, run⟩ := (bind_ok_iff _ _ _).mp run
  obtain ⟨_, -, run⟩ := (bind_ok_iff _ _ _).mp run
  obtain ⟨⟨middle, incidentId⟩, middleRun, run⟩ := (bind_ok_iff _ _ _).mp run
  obtain ⟨after, escrow, registered⟩ :=
    registerClaim_ok token insuredTokenAmount scoreToSpend boosterAmount incidentId run
  rcases claimIncident_ok token referenceBlock signature incidentId middleRun with
    ⟨mod, claimDeadline, idEq, opened⟩ | ⟨middleEq, mod, present, joinable⟩
  · subst idEq
    exact .openedAndFiled token insuredTokenAmount scoreToSpend boosterAmount referenceBlock
      signature middle mod after claimDeadline escrow scoreFits opened registered
  · subst middleEq
    have sameMod : after = mod := Option.some.inj (registered.present.symm.trans present)
    subst sameMod
    exact .filed token insuredTokenAmount scoreToSpend boosterAmount referenceBlock signature after
      incidentId escrow scoreFits joinable registered

theorem callModule_cases (call : ModuleCall)
    (run : w.callModule platform m sender call = .ok next) :
    ModuleCase platform m sender w next call := by
  unfold World.callModule at run
  obtain ⟨_, encodable, run⟩ := (bind_ok_iff _ _ _).mp run
  cases call with
  | setClaimBondAmount amount =>
      exact .configured _ (by simp) (by simp) (by simp) (setClaimBondAmount_ok amount run)
  | setSettlementParams params =>
      exact .configured _ (by simp) (by simp) (by simp) (setSettlementParams_ok params run)
  | setTeeSigner signer authorized =>
      exact .configured _ (by simp) (by simp) (by simp) (setTeeSigner_ok signer authorized run)
  | editInsuredToken token recipe =>
      exact .configured _ (by simp) (by simp) (by simp) (editInsuredToken_ok token recipe run)
  | sweepToken token recipient =>
      obtain ⟨amount, done⟩ := sweepModuleToken_ok token recipient run
      exact .swept token recipient amount done
  | openClaimIncident token referenceBlock =>
      unfold World.openClaimIncident at run
      obtain ⟨_, -, run⟩ := (bind_ok_iff _ _ _).mp run
      obtain ⟨mod, claimDeadline, done⟩ := openIncident_ok token referenceBlock _ run
      exact .opened token referenceBlock claimDeadline mod done
  | fileClaim token insuredTokenAmount scoreToSpend boosterAmount referenceBlock signature =>
      have fits : ModuleCall.Encodable (.fileClaim token insuredTokenAmount scoreToSpend
          boosterAmount referenceBlock signature) :=
        not_not.mp ((revertIf_ok_iff _ _ _).mp encodable)
      exact fileClaim_cases token insuredTokenAmount scoreToSpend boosterAmount referenceBlock
        signature fits.2.1 run
  | cancelClaim =>
      obtain ⟨mod, incidentId, claimId, done⟩ := cancelClaim_ok run
      exact .cancelled mod incidentId claimId done
  | settleIncident root poolPayouts signature =>
      obtain ⟨mod, incidentId, deadline, done⟩ := settleIncident_ok root poolPayouts signature run
      exact .settled root poolPayouts signature mod incidentId deadline done
  | adminCorrectSettlement root poolPayouts =>
      obtain ⟨mod, incidentId, ⟨void, done⟩ | ⟨deadline, done⟩⟩ :=
        adminCorrectSettlement_ok root poolPayouts run
      · subst void
        exact .voided poolPayouts mod incidentId done
      · exact .corrected root poolPayouts mod incidentId deadline done
  | finalizeClaim claimId acceptPayout row proof =>
      obtain ⟨mod, ⟨declined, done⟩ | done⟩ := finalizeClaim_ok claimId acceptPayout row proof run
      · subst declined
        exact .recovered claimId row proof mod done
      · exact .finalized claimId acceptPayout row proof mod done

end Cases

end Usd8Core.Insurance
