import Usd8Core.Insurance.ClaimMoves
import Usd8Core.Insurance.IncidentSteps

/-!
# How a claim is resolved

What `finalizeClaim` does with the three escrowed assets of a claim is one
decision about the row, the claimant's choice and whether there is a settlement
at all.  The law says where every token went, who could bring it about, and that
it happens once.
-/

set_option autoImplicit false

namespace Usd8Core.Insurance

open Usd8Core.Lib.ByteWords
open Usd8Core.Lib.CheckedCall
open Usd8Core.Lib.FiniteLedger
open Usd8Core.Lib.TraceRun
open Usd8Core.Chain
open Usd8Core.Pool

/-! ## The decision -/

/-- What becomes of the escrow of a claim. -/
structure Disposal where
  kept : Nat
  burnt : Nat
  bondTo : Address
  paysOut : Bool

/-- The module was removed, or its incident has no root. -/
def withoutSettlement (w : World) (m : Address) (mod : DefiInsurance) (claimId : Nat) : Bool :=
  decide (w.registry.defiInsurance ≠ m ∨
    (mod.incidents (mod.claims claimId).incidentId).root = Hash.zero)

def disposal (treasury : Address) (claim : Claim) (recovered acceptPayout : Bool)
    (row : PayoutRow) : Disposal :=
  let paid := !recovered && (acceptPayout && row.eligible)
  { kept := if paid = true then row.eligibleAmount else 0
    burnt := if paid = true then row.eligibleBoosterAmount else 0
    bondTo := if (recovered || row.eligible) = true then claim.user else treasury
    paysOut := paid }

/-- The amount at one index, grossed up by the fee, when the pool at `p` stands there. -/
def grossTerm (inc : Incident) (amounts : List Nat) (p : Address) (i : Nat) : Nat :=
  if inc.pools[i]? = some p then
    amounts.getD i 0 * bpsDenominator / (bpsDenominator - inc.protocolFeeShareBps) else 0

/-- What the pool at `p` pays for one row. -/
def grossPaid (inc : Incident) (amounts : List Nat) (p : Address) : Nat :=
  ((List.range inc.pools.length).map (grossTerm inc amounts p)).sum

/-! ## Flows -/

/-- Nothing but the module's storage and the two token ledgers may differ. -/
structure OnlyLedgers (w next : World) : Prop where
  block : next.block = w.block
  registry : next.registry = w.registry
  pools : next.pools = w.pools
  logs : next.logs = w.logs

theorem OnlyLedgers.trans {w middle next : World} (first : OnlyLedgers w middle)
    (second : OnlyLedgers middle next) : OnlyLedgers w next :=
  ⟨second.block.trans first.block, second.registry.trans first.registry,
    second.pools.trans first.pools, second.logs.trans first.logs⟩

/-- An amount of one token went from the payer to the payee. -/
def Erc20Flow (before after : Erc20) (token payer payee : Address) (amount : Nat) : Prop :=
  ∀ other account, after other account + (if other = token ∧ account = payer then amount else 0) =
    before other account + if other = token ∧ account = payee then amount else 0

/-- Of one booster id the holder lost an amount, and the payee got another. -/
def BoosterFlow (before after : Erc1155) (config : BoosterConfig) (holder payee : Address)
    (lost got : Nat) : Prop :=
  ∀ collection id account,
    after collection id account +
        (if collection = config.collection ∧ id = config.tokenId ∧ account = holder then lost
          else 0) =
      before collection id account +
        if collection = config.collection ∧ id = config.tokenId ∧ account = payee then got else 0

/-- The escrow of a claim left the module as the decision says. -/
structure EscrowLeft (m : Address) (w left : World) (claim : Claim) (token : Address)
    (decided : Disposal) : Prop where
  kept_le : decided.kept ≤ claim.insuredTokenAmount
  burnt_le : decided.burnt ≤ claim.boosterAmount
  tokens : ∀ other account,
    left.erc20 other account +
        ((if other = token ∧ account = m then claim.insuredTokenAmount - decided.kept else 0) +
          if other = w.registry.usd8 ∧ account = m then claim.bondAmount else 0) =
      w.erc20 other account +
        ((if other = token ∧ account = claim.user then claim.insuredTokenAmount - decided.kept
            else 0) +
          if other = w.registry.usd8 ∧ account = decided.bondTo then claim.bondAmount else 0)
  boosters : BoosterFlow w.erc1155 left.erc1155 w.registry.boosterConfig m claim.user
    claim.boosterAmount (claim.boosterAmount - decided.burnt)
  frame : OnlyLedgers w left

section Flows

variable {m : Address} {w next : World}

theorem transferErc20_flow (token sender recipient : Address) (amount : Nat)
    (run : w.transferErc20 token sender recipient amount = .ok next) :
    Erc20Flow w.erc20 next.erc20 token sender recipient amount ∧
      next = { w with erc20 := next.erc20 } := by
  obtain ⟨erc20, transferred, rfl⟩ := (transferErc20_ok_iff _ _ _ _).mp run
  obtain ⟨-, -, enough, rfl⟩ := (erc20Transfer_ok_iff _ _ _ _ _ _).mp transferred
  refine ⟨fun other account => ?_, rfl⟩
  by_cases same : other = token
  · subst same
    simpa using moveBalance_flow (w.erc20 other) sender recipient account amount enough
  · simp [same]

/-- A refund of nothing makes no call. -/
theorem refund_flow (token sender recipient : Address) (amount : Nat)
    (run : (if amount ≠ 0 then w.transferErc20 token sender recipient amount else pure w) =
      .ok next) :
    Erc20Flow w.erc20 next.erc20 token sender recipient amount ∧
      next = { w with erc20 := next.erc20 } := by
  rcases (ite_ok_iff _ _ _ _).mp run with ⟨-, run⟩ | ⟨nothing, same⟩
  · exact transferErc20_flow token sender recipient amount run
  · cases (pure_ok_iff _ _).mp same
    have zero : amount = 0 := not_not.mp nothing
    exact ⟨fun other account => by simp [zero], rfl⟩

theorem resolveBoosters_flow (claim : Claim) (recipient : Address) (burnAmount : Nat)
    (bounded : burnAmount ≤ claim.boosterAmount)
    (run : w.resolveBoosters m claim recipient burnAmount = .ok next) :
    BoosterFlow w.erc1155 next.erc1155 w.registry.boosterConfig m recipient claim.boosterAmount
        (claim.boosterAmount - burnAmount) ∧
      next = { w with erc1155 := next.erc1155 } := by
  unfold World.resolveBoosters at run
  rcases (ite_ok_iff _ _ _ _).mp run with ⟨-, run⟩ | ⟨none, result⟩
  · obtain ⟨burnt, burntRun, run⟩ := (bind_ok_iff _ _ _).mp run
    obtain ⟨returned, returnedRun, result⟩ := (bind_ok_iff _ _ _).mp run
    cases (pure_ok_iff _ _).mp result
    have burntFlow : ∀ collection id account,
        burnt collection id account + (if collection = w.registry.boosterConfig.collection ∧
          id = w.registry.boosterConfig.tokenId ∧ account = m then burnAmount else 0) =
          w.erc1155 collection id account := by
      rcases (ite_ok_iff _ _ _ _).mp burntRun with ⟨-, ran⟩ | ⟨zero, same⟩
      · obtain ⟨-, enough, rfl⟩ := (erc1155Burn_ok_iff _ _ _ _ _ _).mp ran
        intro collection id account
        by_cases sameUnit : collection = w.registry.boosterConfig.collection ∧
          id = w.registry.boosterConfig.tokenId
        · obtain ⟨rfl, rfl⟩ := sameUnit
          by_cases holder : account = m
          · subst holder
            simp [enough]
          · simp [holder]
        · rw [erc1155_update_of_ne _ _ _ _ _ _ sameUnit]
          simp only [← and_assoc, sameUnit, false_and, if_false, Nat.add_zero]
      · cases (pure_ok_iff _ _).mp same
        have nothing : burnAmount = 0 := not_not.mp zero
        simp [nothing]
    have returnedFlow : BoosterFlow burnt returned w.registry.boosterConfig m recipient
        (claim.boosterAmount - burnAmount) (claim.boosterAmount - burnAmount) := by
      rcases (ite_ok_iff _ _ _ _).mp returnedRun with ⟨-, ran⟩ | ⟨noRest, same⟩
      · obtain ⟨-, -, enough, rfl⟩ := (erc1155Transfer_ok_iff _ _ _ _ _ _ _).mp ran
        intro collection id account
        by_cases sameUnit : collection = w.registry.boosterConfig.collection ∧
          id = w.registry.boosterConfig.tokenId
        · obtain ⟨rfl, rfl⟩ := sameUnit
          simpa using moveBalance_flow _ m recipient account _ enough
        · rw [erc1155_update_of_ne _ _ _ _ _ _ sameUnit]
          simp only [← and_assoc, sameUnit, false_and, if_false, Nat.add_zero]
      · cases (pure_ok_iff _ _).mp same
        have nothing : claim.boosterAmount - burnAmount = 0 := by omega
        intro collection id account
        simp [nothing]
    refine ⟨fun collection id account => ?_, rfl⟩
    have first := burntFlow collection id account
    have second := returnedFlow collection id account
    dsimp only
    split_ifs at first second ⊢ <;> omega
  · cases (pure_ok_iff _ _).mp result
    have nothing : claim.boosterAmount = 0 := not_not.mp none
    exact ⟨fun collection id account => by simp [nothing], rfl⟩

theorem resolveClaimBond_flow (claim : Claim) (recipient : Address)
    (run : w.resolveClaimBond m claim recipient = .ok next) :
    Erc20Flow w.erc20 next.erc20 w.registry.usd8 m recipient claim.bondAmount ∧
      next.erc1155 = w.erc1155 ∧ OnlyLedgers w next := by
  unfold World.resolveClaimBond at run
  obtain ⟨moved, movedRun, run⟩ := (bind_ok_iff _ _ _).mp run
  obtain ⟨mod, -, run⟩ := (bind_ok_iff _ _ _).mp run
  obtain ⟨bonds, -, result⟩ := (bind_ok_iff _ _ _).mp run
  cases (pure_ok_iff _ _).mp result
  obtain ⟨flow, movedEq⟩ := transferErc20_flow _ _ _ _ movedRun
  rw [movedEq]
  exact ⟨flow, rfl, rfl, rfl, rfl, rfl⟩

/-- The full refund, boosters first. -/
theorem refundClaim_left (claim : Claim) (token : Address) (row : PayoutRow)
    (run : w.refundClaim m claim token claim.user = .ok next) (treasury : Address)
    (acceptPayout : Bool) :
    EscrowLeft m w next claim token (disposal treasury claim true acceptPayout row) := by
  unfold World.refundClaim at run
  obtain ⟨boosted, boostedRun, run⟩ := (bind_ok_iff _ _ _).mp run
  obtain ⟨bonded, bondedRun, run⟩ := (bind_ok_iff _ _ _).mp run
  obtain ⟨moved, movedRun, run⟩ := (bind_ok_iff _ _ _).mp run
  obtain ⟨mod, -, run⟩ := (bind_ok_iff _ _ _).mp run
  obtain ⟨escrowed, -, result⟩ := (bind_ok_iff _ _ _).mp run
  cases (pure_ok_iff _ _).mp result
  obtain ⟨boosterFlow, boostedEq⟩ := resolveBoosters_flow claim _ 0 (Nat.zero_le _) boostedRun
  obtain ⟨bondFlow, sameBoosters, bondFrame⟩ := resolveClaimBond_flow claim _ bondedRun
  obtain ⟨tokenFlow, movedEq⟩ := transferErc20_flow _ _ _ _ movedRun
  have boostedFrame : OnlyLedgers w boosted := by
    rw [boostedEq]
    exact ⟨rfl, rfl, rfl, rfl⟩
  have movedFrame : OnlyLedgers bonded moved := by
    rw [movedEq]
    exact ⟨rfl, rfl, rfl, rfl⟩
  have sameTokens : boosted.erc20 = w.erc20 := by rw [boostedEq]
  have finalBoosters : moved.erc1155 = boosted.erc1155 := by
    rw [movedEq]
    exact sameBoosters
  refine ⟨Nat.zero_le _, Nat.zero_le _, fun other account => ?_, ?_,
    (boostedFrame.trans bondFrame).trans ⟨movedFrame.block, movedFrame.registry, movedFrame.pools,
      movedFrame.logs⟩⟩
  · have bondMoved := bondFlow other account
    have tokenMoved := tokenFlow other account
    rw [sameTokens, boostedFrame.registry] at bondMoved
    simp only [disposal, Bool.not_true, Bool.false_and, Bool.true_or, if_true, Bool.false_eq_true,
      if_false, Nat.sub_zero]
    change moved.erc20 other account + _ = _
    omega
  · change BoosterFlow w.erc1155 moved.erc1155 _ _ _ _ _
    rw [finalBoosters]
    exact boosterFlow

theorem releaseClaim_left (mod : DefiInsurance) (claimId : Nat) (acceptPayout : Bool)
    (row : PayoutRow) (bounded : row.eligibleBoosterAmount ≤ (mod.claims claimId).boosterAmount)
    (run : w.releaseClaim m mod claimId (acceptPayout && row.eligible) row = .ok next) :
    EscrowLeft m w next (mod.claims claimId)
      (mod.incidents (mod.claims claimId).incidentId).insuredToken
      (disposal w.registry.treasury (mod.claims claimId) false acceptPayout row) := by
  unfold World.releaseClaim at run
  obtain ⟨_, eligible, run⟩ := (bind_ok_iff _ _ _).mp run
  obtain ⟨escrowed, -, run⟩ := (bind_ok_iff _ _ _).mp run
  obtain ⟨refunded, refundedRun, run⟩ := (bind_ok_iff _ _ _).mp run
  obtain ⟨boosted, boostedRun, run⟩ := (bind_ok_iff _ _ _).mp run
  have within := Nat.le_of_not_lt ((revertIf_ok_iff _ _ _).mp eligible)
  have burnBound : (if (acceptPayout && row.eligible) = true then row.eligibleBoosterAmount
      else 0) ≤ (mod.claims claimId).boosterAmount := by
    split
    · exact bounded
    · exact Nat.zero_le _
  obtain ⟨tokenFlow, refundedEq⟩ := refund_flow _ _ _ _ refundedRun
  obtain ⟨boosterFlow, boostedEq⟩ := resolveBoosters_flow _ _ _ burnBound boostedRun
  obtain ⟨bondFlow, sameBoosters, bondFrame⟩ := resolveClaimBond_flow _ _ run
  have refundedFrame : OnlyLedgers w refunded := by
    rw [refundedEq]
    exact ⟨rfl, rfl, rfl, rfl⟩
  have refundedBoosters : refunded.erc1155 = w.erc1155 := by
    rw [refundedEq]
    rfl
  have boostedFrame : OnlyLedgers refunded boosted := by
    rw [boostedEq]
    exact ⟨rfl, rfl, rfl, rfl⟩
  have boostedTokens : boosted.erc20 = refunded.erc20 := by rw [boostedEq]
  have keptEq : (if (acceptPayout && row.eligible) = true then
      (mod.claims claimId).insuredTokenAmount - row.eligibleAmount
      else (mod.claims claimId).insuredTokenAmount) =
      (mod.claims claimId).insuredTokenAmount - (disposal w.registry.treasury
        (mod.claims claimId) false acceptPayout row).kept := by
    simp only [disposal, Bool.not_false, Bool.true_and]
    split
    · rfl
    · rw [Nat.sub_zero]
  refine ⟨?_, ?_, fun other account => ?_, ?_, (refundedFrame.trans boostedFrame).trans bondFrame⟩
  · simp only [disposal]
    split
    · exact within
    · exact Nat.zero_le _
  · exact burnBound
  · have tokenMoved := tokenFlow other account
    have bondMoved := bondFlow other account
    rw [keptEq] at tokenMoved
    rw [boostedTokens, boostedFrame.registry, refundedFrame.registry] at bondMoved
    change refunded.erc20 other account + _ = w.erc20 other account + _ at tokenMoved
    simp only [disposal, Bool.false_or] at tokenMoved bondMoved ⊢
    omega
  · rw [sameBoosters]
    rw [refundedBoosters, refundedFrame.registry] at boosterFlow
    exact boosterFlow

end Flows

/-! ## The payout -/

section Payout

variable {platform : Platform} {m sender : Address} {w next : World} {mod : DefiInsurance}
  {incidentId : Nat}

theorem AmountPaid.grossTerm {amounts : List Nat} {i amount : Nat} {budget : List Nat}
    (paid : AmountPaid m incidentId amounts i w next (withBudget mod incidentId budget) amount)
    (p : Address) :
    next.registry = w.registry ∧ claimsPaid next p =
      claimsPaid w p + Insurance.grossTerm (mod.incidents incidentId) amounts p i := by
  have amountEq : amounts.getD i 0 = amount := by
    rw [List.getD_eq_getElem?_getD, paid.amountEq]
    rfl
  rcases paid.paid with ⟨rfl, rfl⟩ | ⟨gross, remaining, pool, middle, grossEq, -, -, atPool,
    middleEq, poolPaid⟩
  · rw [Insurance.grossTerm, amountEq]
    simp
  · rw [withBudget_incident] at grossEq atPool
    have before : claimsPaid middle p = claimsPaid w p := by
      rw [middleEq]
      rfl
    refine ⟨by rw [poolPaid.registry, middleEq]; rfl, ?_⟩
    rw [Insurance.grossTerm, atPool, amountEq, ← grossEq, ← before]
    by_cases same : p = pool
    · rw [same, if_pos rfl, poolPaid.paid]
    · rw [if_neg (fun eq => same (Option.some.inj eq).symm), poolPaid.otherPaid p same, Nat.add_zero]

theorem payClaimAmounts_gross (claimant : Address) (amounts : List Nat)
    (present : w.modules m = some mod)
    (run : w.payClaimAmounts m incidentId claimant amounts = .ok next) :
    next.registry = w.registry ∧ ∀ p, claimsPaid next p =
      claimsPaid w p + grossPaid (mod.incidents incidentId) amounts p := by
  unfold World.payClaimAmounts at run
  obtain ⟨found, foundRun, run⟩ := (bind_ok_iff _ _ _).mp run
  cases ((getModule_ok_iff found).mp foundRun).symm.trans present
  have tracked := foldlM_tracks _ (fun done state =>
      (∃ budget, Drawn m incidentId w state mod budget) ∧ state.registry = w.registry ∧
        ∀ p, claimsPaid state p = claimsPaid w p +
          (done.map (grossTerm (mod.incidents incidentId) amounts p)).sum) ?_ _ [] w next
    ⟨⟨_, Drawn.refl present⟩, rfl, fun p => by simp⟩ run
  · exact tracked.2
  · rintro done state i after ⟨⟨budget, drawn⟩, registry, paid⟩ ran
    obtain ⟨amount, amountPaid⟩ :=
      payClaimAmount_ok incidentId claimant _ amounts i _ drawn.stored ran
    refine ⟨drawn.amountPaid i amount amountPaid, ?_, fun p => ?_⟩
    · rw [(amountPaid.grossTerm Address.zero).1, registry]
    · rw [(amountPaid.grossTerm p).2, paid p, List.map_append, List.sum_append]
      simp [Nat.add_assoc]

theorem spendScore_spends (claimant : Address) (scoreSpent : Nat)
    (run : w.spendScore platform m incidentId claimant scoreSpent = .ok next) :
    next.registry.scoreSpent = Function.update w.registry.scoreSpent claimant
        (w.registry.scoreSpent claimant + scoreSpent) ∧
      ∀ p, claimsPaid next p = claimsPaid w p := by
  unfold World.spendScore at run
  rcases (ite_ok_iff _ _ _ _).mp run with ⟨-, run⟩ | ⟨zero, result⟩
  · obtain ⟨⟨registry, event⟩, recorded, result⟩ := (bind_ok_iff _ _ _).mp run
    cases (pure_ok_iff _ _).mp result
    unfold Registry.recordScoreSpent at recorded
    obtain ⟨_, -, recorded⟩ := (bind_ok_iff _ _ _).mp recorded
    obtain ⟨total, totalRun, recorded⟩ := (bind_ok_iff _ _ _).mp recorded
    obtain ⟨-, rfl⟩ := (checkedAdd_ok_iff _ _ _ _).mp totalRun
    cases (pure_ok_iff _ _).mp recorded
    refine ⟨rfl, fun p => ?_⟩
    rw [claimsPaid_emit]
    have own : claimsPaid (w.emit m (.scoreSpent claimant scoreSpent incidentId)) p =
        claimsPaid w p := claimsPaid_emitOwn p _ trivial
    rw [show claimPaidAmount (.scoreSpentRecorded claimant scoreSpent _) = 0 from rfl, ite_self,
      Nat.add_zero]
    exact own
  · cases (pure_ok_iff _ _).mp result
    simp [not_not.mp zero]

/-- An accepted payout: what each pool paid and the score recorded in the Registry. -/
theorem payAccepted_pays (claimant : Address) (row : PayoutRow)
    (present : w.modules m = some mod)
    (run : w.payAccepted platform m incidentId claimant row = .ok next) :
    next.registry.scoreSpent = Function.update w.registry.scoreSpent claimant
        (w.registry.scoreSpent claimant + row.scoreSpent) ∧
      ∀ p, claimsPaid next p =
        claimsPaid w p + grossPaid (mod.incidents incidentId) row.amounts p := by
  unfold World.payAccepted at run
  obtain ⟨paid, paidRun, run⟩ := (bind_ok_iff _ _ _).mp run
  obtain ⟨registry, gross⟩ := payClaimAmounts_gross claimant row.amounts present paidRun
  obtain ⟨spent, same⟩ := spendScore_spends claimant row.scoreSpent run
  rw [registry] at spent
  exact ⟨spent, fun p => (same p).trans (gross p)⟩

end Payout

/-! ## The law of one call -/

/-- The outcome of a successful `finalizeClaim`. -/
structure ResolutionLaw (platform : Platform) (m sender : Address) (w next : World)
    (mod after : DefiInsurance) (claimId : Nat) (acceptPayout : Bool) (row : PayoutRow)
    (proof : List Hash) : Prop where
  filed : (mod.claims claimId).user ≠ Address.zero
  unresolved : (mod.claims claimId).resolved = false
  resolved : after.claims =
    Function.update mod.claims claimId { mod.claims claimId with resolved := true }
  recovery : withoutSettlement w m mod claimId = true →
    acceptPayout = false ∧ sender = (mod.claims claimId).user
  proven : withoutSettlement w m mod claimId = false → merkleProofVerify platform proof
    (mod.incidents (mod.claims claimId).incidentId).root
    (settlementLeaf platform (mod.claims claimId).incidentId claimId (mod.claims claimId).user
      row) = true
  stranger : sender ≠ (mod.claims claimId).user →
    withoutSettlement w m mod claimId = false ∧ acceptPayout = false ∧ row.eligible = false
  escrow : ∃ left, EscrowLeft m w left (mod.claims claimId)
      (mod.incidents (mod.claims claimId).incidentId).insuredToken
      (disposal w.registry.treasury (mod.claims claimId) (withoutSettlement w m mod claimId)
        acceptPayout row) ∧
    next.erc1155 = left.erc1155 ∧
    ((withoutSettlement w m mod claimId = true ∨ acceptPayout = false ∨ row.eligible = false) →
      next.erc20 = left.erc20 ∧ next.pools = w.pools ∧ next.registry = w.registry ∧
        ∀ p, claimsPaid next p = claimsPaid w p) ∧
    (withoutSettlement w m mod claimId = false → acceptPayout = true → row.eligible = true →
      (∃ paid, left.payAccepted platform m (mod.claims claimId).incidentId
          (mod.claims claimId).user row = .ok paid ∧ next.erc20 = paid.erc20 ∧
          next.pools = paid.pools ∧ next.registry = paid.registry) ∧
        (∀ p, claimsPaid next p = claimsPaid w p +
          grossPaid (mod.incidents (mod.claims claimId).incidentId) row.amounts p) ∧
        next.registry.scoreSpent (mod.claims claimId).user =
          w.registry.scoreSpent (mod.claims claimId).user + row.scoreSpent ∧ 0 < row.scoreSpent)

section Law

variable {platform : Platform} {m sender : Address} {w next : World} {mod : DefiInsurance}
  {claimId : Nat} {acceptPayout : Bool} {row : PayoutRow} {proof : List Hash}

theorem recoverClaim_law (present : w.modules m = some mod)
    (filed : (mod.claims claimId).user ≠ Address.zero)
    (unresolved : (mod.claims claimId).resolved = false)
    (noSettlement : w.registry.defiInsurance ≠ m ∨
      (mod.incidents (mod.claims claimId).incidentId).root = Hash.zero)
    (run : w.recoverClaim m sender mod claimId acceptPayout = .ok next) :
    ∃ after, next.modules m = some after ∧
      ResolutionLaw platform m sender w next mod after claimId acceptPayout row proof := by
  obtain ⟨declined, done⟩ := recoverClaim_ok mod claimId acceptPayout present filed unresolved
    noSettlement run
  obtain ⟨erc20, erc1155, -, nextEq⟩ := done.outcome
  have isRecovery : withoutSettlement w m mod claimId = true := decide_eq_true noSettlement
  have stored : next.modules m = some (refundedModule (recoveredBase mod claimId w.now)
      (mod.claims claimId) (mod.incidents (mod.claims claimId).incidentId).insuredToken) := by
    rw [nextEq]
    exact setModule_self _
  unfold World.recoverClaim World.resolveWithoutSettlement at run
  obtain ⟨_, -, run⟩ := (bind_ok_iff _ _ _).mp run
  obtain ⟨_, -, run⟩ := (bind_ok_iff _ _ _).mp run
  obtain ⟨unresolvedLeft, -, run⟩ := (bind_ok_iff _ _ _).mp run
  obtain ⟨left, refundRun, result⟩ := (bind_ok_iff _ _ _).mp run
  cases (pure_ok_iff _ _).mp result
  rw [done.owner] at refundRun
  have released := refundClaim_left _ _ row refundRun w.registry.treasury acceptPayout
  refine ⟨_, stored,
    { filed := filed
      unresolved := unresolved
      resolved := done.resolves.claims
      recovery := fun _ => ⟨declined, done.owner⟩
      proven := ?_
      stranger := fun other => absurd done.owner other
      escrow := ?_ }⟩
  · rw [isRecovery]
    rintro ⟨⟩
  · rw [isRecovery]
    refine ⟨left, ⟨released.kept_le, released.burnt_le, released.tokens, released.boosters,
      ⟨released.frame.block, released.frame.registry, released.frame.pools, released.frame.logs⟩⟩,
      rfl, fun _ => ⟨rfl, released.frame.pools, released.frame.registry, fun p => ?_⟩, ?_⟩
    · rw [claimsPaid_emitOwn p (.claimDeclined claimId sender false) trivial, claimsPaid, eventsOf,
        released.frame.logs]
      rfl
    · rintro ⟨⟩

/-- What `closeClaim` leaves alone. -/
theorem closeClaim_frame (paid eligible : Bool)
    (run : w.closeClaim m claimId paid eligible = .ok next) :
    next.erc20 = w.erc20 ∧ next.erc1155 = w.erc1155 ∧ next.pools = w.pools ∧
      next.registry = w.registry ∧ ∀ p, claimsPaid next p = claimsPaid w p := by
  unfold World.closeClaim at run
  obtain ⟨found, -, run⟩ := (bind_ok_iff _ _ _).mp run
  obtain ⟨unresolvedLeft, -, result⟩ := (bind_ok_iff _ _ _).mp run
  cases (pure_ok_iff _ _).mp result
  refine ⟨rfl, rfl, rfl, rfl, fun p => ?_⟩
  rw [claimsPaid_emitOwn]
  · rfl
  · split <;> trivial

theorem settleRow_law (present : w.modules m = some mod)
    (filed : (mod.claims claimId).user ≠ Address.zero)
    (unresolved : (mod.claims claimId).resolved = false)
    (registered : w.registry.defiInsurance = m)
    (hasRoot : (mod.incidents (mod.claims claimId).incidentId).root ≠ Hash.zero)
    (run : w.settleRow platform m sender mod claimId acceptPayout row proof = .ok next) :
    ∃ after, next.modules m = some after ∧
      ResolutionLaw platform m sender w next mod after claimId acceptPayout row proof := by
  have done := settleRow_ok mod claimId acceptPayout row proof present filed unresolved registered
    hasRoot run
  have isSettled : withoutSettlement w m mod claimId = false := by
    simp [withoutSettlement, registered, hasRoot]
  have stored : ∃ budget, next.modules m = some (finalizedStorage mod claimId w.now budget) := by
    obtain ⟨_, paid, budget, event, -, -, -, -, nextEq, -⟩ := done.outcome
    rw [nextEq]
    exact ⟨budget, setModule_self _⟩
  obtain ⟨budget, storedEq⟩ := stored
  unfold World.settleRow at run
  obtain ⟨_, -, run⟩ := (bind_ok_iff _ _ _).mp run
  obtain ⟨left, leftRun, run⟩ := (bind_ok_iff _ _ _).mp run
  obtain ⟨paid, paidRun, run⟩ := (bind_ok_iff _ _ _).mp run
  have escrow := releaseClaim_left mod claimId acceptPayout row done.checked.boosters leftRun
  have released := releaseClaim_ok mod claimId _ row done.checked.boosters leftRun
  have leftPresent : left.modules m = some (releasedStorage mod claimId) := by
    obtain ⟨_, _, _, _, _, -, -, -, -, leftEq⟩ := released.outcome
    rw [leftEq]
    exact setModule_self _
  have leftPaid : ∀ p, claimsPaid left p = claimsPaid w p := by
    intro p
    rw [claimsPaid, eventsOf, escrow.frame.logs]
    rfl
  obtain ⟨tokens, boosters, pools, registry, unpaid⟩ := closeClaim_frame _ _ run
  refine ⟨_, storedEq,
    { filed := filed
      unresolved := unresolved
      resolved := rfl
      recovery := ?_
      proven := fun _ => done.checked.proven
      stranger := fun other =>
        ⟨isSettled, (done.checked.caller.resolve_left other).1,
          (done.checked.caller.resolve_left other).2⟩
      escrow := ⟨left, ?_, ?_, ?_, ?_⟩ }⟩
  · rw [isSettled]
    rintro ⟨⟩
  · rw [isSettled]
    exact escrow
  · rw [boosters]
    rcases (ite_ok_iff _ _ _ _).mp paidRun with ⟨-, ran⟩ | ⟨-, same⟩
    · obtain ⟨_, drawn⟩ := payAccepted_drawn _ row leftPresent ran
      exact drawn.erc1155
    · rw [(pure_ok_iff _ _).mp same]
  · intro declined
    have notPaid : ¬ (acceptPayout && row.eligible) = true := by
      rw [isSettled] at declined
      rcases declined with ⟨⟨⟩⟩ | refused | ineligible
      · simp [refused]
      · simp [ineligible]
    rw [if_neg notPaid] at paidRun
    cases (pure_ok_iff _ _).mp paidRun
    exact ⟨tokens, pools.trans escrow.frame.pools, registry.trans escrow.frame.registry,
      fun p => (unpaid p).trans (leftPaid p)⟩
  · intro _ accepts eligible
    have isPaid : (acceptPayout && row.eligible) = true := by simp [accepts, eligible]
    rw [if_pos isPaid] at paidRun
    obtain ⟨spent, gross⟩ := payAccepted_pays _ row leftPresent paidRun
    refine ⟨⟨paid, paidRun, tokens, pools, registry⟩, fun p => ?_, ?_, ?_⟩
    · rw [unpaid, gross, leftPaid]
      rfl
    · rw [registry, spent, escrow.frame.registry, Function.update_self]
    · simp only [PayoutRow.eligible, Bool.and_eq_true, decide_eq_true_eq] at eligible
      exact Nat.pos_of_ne_zero eligible.2

theorem finalizeClaim_law
    (run : w.finalizeClaim platform m sender claimId acceptPayout row proof = .ok next) :
    ∃ mod after, w.modules m = some mod ∧ next.modules m = some after ∧
      ResolutionLaw platform m sender w next mod after claimId acceptPayout row proof := by
  unfold World.finalizeClaim at run
  obtain ⟨mod, found, run⟩ := (bind_ok_iff _ _ _).mp run
  obtain ⟨_, filed, run⟩ := (bind_ok_iff _ _ _).mp run
  obtain ⟨_, unresolved, run⟩ := (bind_ok_iff _ _ _).mp run
  have present := (getModule_ok_iff mod).mp found
  have isFiled := (revertIf_ok_iff _ _ _).mp filed
  have isUnresolved : (mod.claims claimId).resolved = false := by
    simpa using (revertIf_ok_iff _ _ _).mp unresolved
  refine ⟨mod, ?_⟩
  rcases (ite_ok_iff _ _ _ _).mp run with ⟨noSettlement, run⟩ | ⟨settled, run⟩
  · obtain ⟨after, stored, law⟩ := recoverClaim_law present isFiled isUnresolved noSettlement run
    exact ⟨after, present, stored, law⟩
  · rw [not_or, not_not] at settled
    obtain ⟨after, stored, law⟩ :=
      settleRow_law present isFiled isUnresolved settled.1 settled.2 run
    exact ⟨after, present, stored, law⟩

end Law

/-! ## Once only -/

/-- The step resolves the claim under the id, by finalizing or by cancelling it. -/
def Resolves (m : Address) (claimId : Nat) (t : Transition World Tx) : Prop :=
  (∃ sender acceptPayout row proof,
    t.action = .module m sender (.finalizeClaim claimId acceptPayout row proof)) ∨
  ∃ sender mod, t.action = .module m sender .cancelClaim ∧ t.before.modules m = some mod ∧
    mod.claimIdByIncidentAndUser (mod.activeIncidentId t.before.now) sender = claimId

/-- Every claim a module has resolved is still resolved in a later storage. -/
def KeepsResolved (mod after : DefiInsurance) : Prop :=
  mod.nextClaimId ≤ after.nextClaimId ∧ ∀ claimId, (mod.claims claimId).resolved = true →
    claimId < mod.nextClaimId → (after.claims claimId).resolved = true

section Once

variable {platform : Platform} {m sender : Address} {w next : World} {mod after : DefiInsurance}

theorem ClaimsMoved.keeps (moved : ClaimsMoved mod after) : KeepsResolved mod after := by
  cases moved with
  | same claims claimIds nextClaimId =>
      refine ⟨nextClaimId.ge, fun claimId resolved _ => ?_⟩
      rw [claims]
      exact resolved
  | filed claim noClaim claims claimIds nextClaimId =>
      refine ⟨by omega, fun claimId resolved filed => ?_⟩
      rw [claims, Function.update_of_ne (Nat.ne_of_lt filed)]
      exact resolved
  | resolved done live claims claimIds nextClaimId =>
      refine ⟨nextClaimId.ge, fun claimId resolved _ => ?_⟩
      rw [claims]
      by_cases same : claimId = done
      · rw [same, Function.update_self]
      · rw [Function.update_of_ne same]
        exact resolved

/-- A claim of the module was filed and is resolved. -/
def Settled (m : Address) (claimId : Nat) (w : World) : Prop :=
  ∃ mod, w.modules m = some mod ∧ claimId < mod.nextClaimId ∧ (mod.claims claimId).resolved = true

theorem Settled.afterStep {claimId : Nat} {tx : Tx} (reachable : Reachable platform w)
    (settled : Settled m claimId w) (ran : step platform w tx = .ok next) :
    Settled m claimId next := by
  obtain ⟨mod, present, filed, resolved⟩ := settled
  cases step_moduleView (m := m) (reachable_deployment reachable) ran with
  | bystander _ notCalled same richer registry later =>
      exact ⟨mod, same.trans present, filed, resolved⟩
  | deployed fresh nextEq =>
      rw [present] at fresh
      cases fresh
  | acted sender call external run =>
      obtain ⟨after, stored, moved⟩ :=
        callModule_claims (reachable_moduleInOrder reachable present).book present run
      have kept := moved.keeps
      exact ⟨after, stored, Nat.lt_of_lt_of_le filed kept.1, kept.2 claimId resolved filed⟩

theorem Settled.afterRun {claimId : Nat} {steps : List (Transition World Tx)}
    (reachable : Reachable platform w) (settled : Settled m claimId w)
    (run : IsRun (step platform) w steps next) : Settled m claimId next := by
  have both : Reachable platform next ∧ Settled m claimId next := by
    refine run.invariant (fun world => Reachable platform world ∧ Settled m claimId world)
      ⟨reachable, settled⟩ ?_
    rintro world tx after ⟨reached, holds⟩ ran
    exact ⟨reached.step ran, holds.afterStep reached ran⟩
  exact both.2

/-- A step that resolves a claim finds it unresolved and leaves it resolved. -/
theorem Resolves.outcome {claimId : Nat} {t : Transition World Tx}
    (reachable : Reachable platform t.before)
    (ran : step platform t.before t.action = .ok t.after) (resolves : Resolves m claimId t) :
    (∃ mod, t.before.modules m = some mod ∧ (mod.claims claimId).resolved = false) ∧
      Settled m claimId t.after := by
  have written : ∃ mod after, t.before.modules m = some mod ∧ t.after.modules m = some after ∧
      ClaimResolved mod after claimId := by
    rcases resolves with ⟨sender, acceptPayout, row, proof, action⟩ |
      ⟨sender, found, action, foundPresent, own⟩
    · rw [action] at ran
      obtain ⟨_, -, run⟩ := (bind_ok_iff _ _ _).mp ran
      obtain ⟨_, -, run⟩ := (bind_ok_iff _ _ _).mp run
      obtain ⟨mod, ⟨-, done⟩ | done⟩ := finalizeClaim_ok claimId acceptPayout row proof run
      · obtain ⟨erc20, erc1155, -, nextEq⟩ := done.outcome
        rw [nextEq]
        exact ⟨mod, _, done.present, setModule_self _, done.resolves⟩
      · obtain ⟨_, paid, budget, event, -, -, -, -, nextEq, -⟩ := done.outcome
        rw [nextEq]
        exact ⟨mod, _, done.present, setModule_self _,
          finalizedStorage_resolves _ budget done.filed done.unresolved⟩
    · rw [action] at ran
      obtain ⟨_, -, run⟩ := (bind_ok_iff _ _ _).mp ran
      obtain ⟨_, -, run⟩ := (bind_ok_iff _ _ _).mp run
      obtain ⟨mod, incidentId, cancelledId, done⟩ := cancelClaim_ok run
      cases done.present.symm.trans foundPresent
      have same : cancelledId = claimId := by
        rw [← own, done.active, done.claimOfSender]
      subst same
      have cancelled := done.resolves (reachable_moduleInOrder reachable done.present).book
      obtain ⟨base, erc20, erc1155, rfl, -, nextEq⟩ := done.outcome
      rw [nextEq]
      exact ⟨_, _, foundPresent, setModule_self _, cancelled⟩
  obtain ⟨mod, after, present, stored, done⟩ := written
  have filed : claimId < mod.nextClaimId := by
    by_contra beyond
    exact done.filed ((reachable_moduleInOrder reachable present).book.unfiled claimId
      (Or.inr (not_lt.mp beyond)))
  refine ⟨⟨mod, present, done.unresolved⟩, after, stored, ?_, ?_⟩
  · rw [done.nextClaimId]
    exact filed
  · rw [done.claims, Function.update_self]

/-- No run resolves a claim twice. -/
theorem resolves_once {claimId : Nat} {earlier between later : List (Transition World Tx)}
    {t s : Transition World Tx}
    (run : SystemRun platform (earlier ++ t :: (between ++ s :: later)) w) :
    ¬ (Resolves m claimId t ∧ Resolves m claimId s) := by
  rintro ⟨first, second⟩
  obtain ⟨beforeT, ranT, rest⟩ := run.split_at
  obtain ⟨toS, ranS, -⟩ := rest.split_at
  have afterT := beforeT.reachable.step ranT
  have settled := (first.outcome beforeT.reachable ranT).2.afterRun afterT toS
  obtain ⟨⟨mod, present, unresolved⟩, -⟩ := second.outcome (afterT.extend toS) ranS
  obtain ⟨found, foundPresent, -, resolved⟩ := settled
  cases present.symm.trans foundPresent
  rw [unresolved] at resolved
  cases resolved

end Once

/-- The law of claim resolution: what each successful call does, and that no claim is
resolved twice. -/
theorem claim_resolution_law {platform : Platform} {w : World}
    {steps : List (Transition World Tx)} (run : SystemRun platform steps w) :
    (∀ m sender claimId acceptPayout row proof next,
      w.finalizeClaim platform m sender claimId acceptPayout row proof = .ok next →
        ∃ mod after, w.modules m = some mod ∧ next.modules m = some after ∧
          ResolutionLaw platform m sender w next mod after claimId acceptPayout row proof) ∧
    ∀ m claimId earlier t between s later, steps = earlier ++ t :: (between ++ s :: later) →
      ¬ (Resolves m claimId t ∧ Resolves m claimId s) := by
  refine ⟨fun m sender claimId acceptPayout row proof next => finalizeClaim_law, ?_⟩
  rintro m claimId earlier t between s later rfl
  exact resolves_once run

/-- Alice accepts her row in the small deployment: 400 of her tokens are kept, two boosters
are burnt and her score is spent. -/
theorem smallDeployment_resolution :
    ∃ steps w next mod after, SystemRun SmallDeployment.platform steps w ∧
      w.finalizeClaim SmallDeployment.platform SmallDeployment.module SmallDeployment.alice 1 true
        SmallDeployment.aliceRow SmallDeployment.aliceProof = .ok next ∧
      ResolutionLaw SmallDeployment.platform SmallDeployment.module SmallDeployment.alice w next mod
        after 1 true SmallDeployment.aliceRow SmallDeployment.aliceProof ∧
      (disposal w.registry.treasury (mod.claims 1)
        (withoutSettlement w SmallDeployment.module mod 1) true SmallDeployment.aliceRow).kept =
          400 ∧
      next.registry.scoreSpent (mod.claims 1).user =
        w.registry.scoreSpent (mod.claims 1).user + 90 := by
  obtain ⟨steps, w, run, checked⟩ := SmallDeployment.reaches
    (SmallDeployment.stake ++ SmallDeployment.claim ++ SmallDeployment.settle)
    (fun w => (w.modules SmallDeployment.module).any (fun mod =>
        !withoutSettlement w SmallDeployment.module mod 1) &&
      (w.finalizeClaim SmallDeployment.platform SmallDeployment.module SmallDeployment.alice 1 true
        SmallDeployment.aliceRow SmallDeployment.aliceProof).isOk)
    (by decide +kernel)
  rw [Bool.and_eq_true] at checked
  obtain ⟨found, foundPresent, settled⟩ := (Option.any_eq_true _ _).mp checked.1
  cases ran : w.finalizeClaim SmallDeployment.platform SmallDeployment.module
      SmallDeployment.alice 1 true SmallDeployment.aliceRow SmallDeployment.aliceProof with
  | error error =>
      rw [ran] at checked
      cases checked.2
  | ok next =>
      obtain ⟨mod, after, present, stored, law⟩ := (claim_resolution_law run).1 _ _ _ _ _ _ next ran
      cases foundPresent.symm.trans present
      have isSettled : withoutSettlement w SmallDeployment.module found 1 = false := by
        simpa using settled
      have eligible : SmallDeployment.aliceRow.eligible = true := by decide
      obtain ⟨left, -, -, -, paid⟩ := law.escrow
      refine ⟨steps, w, next, found, after, run, ran, law, ?_, (paid isSettled rfl eligible).2.2.1⟩
      simp only [disposal, isSettled, eligible, Bool.not_false, Bool.and_self, if_true]
      rfl

end Usd8Core.Insurance
