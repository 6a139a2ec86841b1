import Usd8Core.Treasury.TreasuryRuns
import Usd8Core.Lib.RemainderSplit

/-!
# Harvests

A harvest mints the surplus above the retained buffer and sends out all USD8 of the
Treasury: the protocol's fee, and the rest to the receivers by weight.  Nothing strands,
and no subtraction of the two passes can underflow.
-/

set_option autoImplicit false

namespace Usd8Core.Treasury

open Usd8Core.Lib.ByteWords
open Usd8Core.Lib.CheckedCall
open Usd8Core.Lib.FiniteLedger
open Usd8Core.Lib.RemainderSplit
open Usd8Core.Chain

namespace TreasuryState

variable {σ : Type} {contracts : ExternalContracts σ} {self : Address}

/-! ## The list of receivers -/

/-- What registration keeps: one entry an address, none for the Treasury, small weights. -/
structure ReceiversSound (treasury : Address) (receivers : List ProfitReceiver) : Prop where
  distinct : (receivers.map ProfitReceiver.receiver).Nodup
  foreign : ∀ p ∈ receivers, p.receiver ≠ treasury
  weight : ∀ p ∈ receivers, p.weight < uintBound 88

theorem mem_upsertReceiver {entry p : ProfitReceiver} {receivers : List ProfitReceiver}
    (member : p ∈ upsertReceiver entry receivers) : p = entry ∨ p ∈ receivers := by
  induction receivers with
  | nil => simpa [upsertReceiver] using member
  | cons first later ih =>
      rw [upsertReceiver] at member
      split at member
      · rcases List.mem_cons.mp member with same | inLater
        · exact .inl same
        · exact .inr (List.mem_cons_of_mem _ inLater)
      · rcases List.mem_cons.mp member with same | inLater
        · exact .inr (by simp [same])
        · exact (ih inLater).imp_right (List.mem_cons_of_mem _)

theorem upsertReceiver_distinct (entry : ProfitReceiver) {receivers : List ProfitReceiver}
    (distinct : (receivers.map ProfitReceiver.receiver).Nodup) :
    ((upsertReceiver entry receivers).map ProfitReceiver.receiver).Nodup := by
  induction receivers with
  | nil => simp [upsertReceiver]
  | cons first later ih =>
      rw [List.map_cons, List.nodup_cons] at distinct
      rw [upsertReceiver]
      split
      next same =>
        rw [List.map_cons, List.nodup_cons, ← same]
        exact distinct
      next differ =>
        rw [List.map_cons, List.nodup_cons]
        refine ⟨fun listed => ?_, ih distinct.2⟩
        obtain ⟨p, member, same⟩ := List.mem_map.mp listed
        rcases mem_upsertReceiver member with rfl | inLater
        · exact differ same.symm
        · exact distinct.1 (List.mem_map.mpr ⟨p, inLater, same⟩)

theorem setProfitReceiver_sound {t next : TreasuryState σ} {sender receiver : Address}
    {weight : Nat} {mode : RevenueDistributionMode}
    (sound : ReceiversSound self t.profitReceivers)
    (run : t.setProfitReceiver self sender receiver weight mode = .ok next) :
    ReceiversSound self next.profitReceivers := by
  obtain ⟨_, -, run⟩ := (bind_ok_iff _ _ _).mp run
  obtain ⟨_, -, run⟩ := (bind_ok_iff _ _ _).mp run
  obtain ⟨_, foreign, run⟩ := (bind_ok_iff _ _ _).mp run
  obtain ⟨_, small, result⟩ := (bind_ok_iff _ _ _).mp run
  have foreign := (revertIf_ok_iff _ _ _).mp foreign
  have small := (revertIf_ok_iff _ _ _).mp small
  cases (pure_ok_iff _ _).mp result
  refine ⟨upsertReceiver_distinct _ sound.distinct, fun p member => ?_, fun p member => ?_⟩
  · rcases mem_upsertReceiver member with rfl | listed
    · exact foreign
    · exact sound.foreign p listed
  · rcases mem_upsertReceiver member with rfl | listed
    · exact Nat.lt_of_not_le small
    · exact sound.weight p listed

/-- Putting the last entry in the place of another one drops that one. -/
theorem set_last_subperm {α : Type} (init : List α) (moved : α) (index : Nat)
    (inside : index < (init ++ [moved]).length) :
    ((init ++ [moved]).set index moved).dropLast.Subperm (init ++ [moved]) := by
  rw [List.length_append, List.length_singleton] at inside
  rcases Nat.lt_or_eq_of_le (Nat.le_of_lt_succ inside) with early | atEnd
  · rw [List.set_append_left _ _ early, List.dropLast_concat,
      List.set_eq_take_append_cons_drop, if_pos early]
    have order : (init.take index ++ moved :: init.drop (index + 1)).Perm
        (init.eraseIdx index ++ [moved]) := by
      rw [List.eraseIdx_eq_take_drop_succ, List.append_assoc]
      exact (List.perm_append_singleton _ _).symm.append_left _
    exact order.subperm.trans ((List.eraseIdx_sublist ..).append_right _).subperm
  · rw [atEnd, List.set_append_right _ _ le_rfl, Nat.sub_self, List.set_cons_zero,
      List.dropLast_concat]
    exact (List.sublist_append_left _ _).subperm

theorem swapRemove_subperm {receiver : Address} {receivers left : List ProfitReceiver}
    (removed : swapRemove receiver receivers = some left) : left.Subperm receivers := by
  obtain ⟨index, found, removed⟩ := Option.bind_eq_some_iff.mp removed
  obtain ⟨moved, last, result⟩ := Option.bind_eq_some_iff.mp removed
  cases result
  obtain ⟨init, rfl⟩ := List.getLast?_eq_some_iff.mp last
  exact set_last_subperm init moved index (List.findIdx?_eq_some_iff_getElem.mp found).1

theorem removeProfitReceiver_sound {t next : TreasuryState σ} {sender receiver : Address}
    (sound : ReceiversSound self t.profitReceivers)
    (run : t.removeProfitReceiver sender receiver = .ok next) :
    ReceiversSound self next.profitReceivers := by
  obtain ⟨_, -, run⟩ := (bind_ok_iff _ _ _).mp run
  obtain ⟨left, removed, result⟩ := (bind_ok_iff _ _ _).mp run
  have smaller := swapRemove_subperm ((orRevert_ok_iff _ _ _).mp removed)
  cases (pure_ok_iff _ _).mp result
  refine ⟨?_, fun p member => sound.foreign p (smaller.subset member),
    fun p member => sound.weight p (smaller.subset member)⟩
  obtain ⟨order, same, sublist⟩ := smaller
  have distinct := sound.distinct.sublist (sublist.map ProfitReceiver.receiver)
  exact (same.map ProfitReceiver.receiver).nodup_iff.mp distinct

/-! ## Payments of USD8 -/

/-- A hook that returns has moved exactly the share to its receiver. -/
def PullsShare (contracts : ExternalContracts σ) (treasury : Address) : Prop :=
  ∀ {external after : σ} {usd8 moved : Usd8} {receiver : Address} {share : Nat},
    contracts.receiveProfitDistribution external usd8 receiver share = some (after, moved) →
    usd8.transfer treasury receiver share = .ok moved

/-- What an account gets of the payments. -/
def receivedBy (account : Address) (payments : List (Address × Nat)) : Nat :=
  (payments.map fun payment => if payment.1 = account then payment.2 else 0).sum

@[simp] theorem receivedBy_nil (account : Address) : receivedBy account [] = 0 := rfl

@[simp] theorem receivedBy_cons (account : Address) (payment : Address × Nat)
    (later : List (Address × Nat)) :
    receivedBy account (payment :: later) =
      (if payment.1 = account then payment.2 else 0) + receivedBy account later := by
  simp [receivedBy]

/-- The payments left the Treasury; its supply and its settings are the same. -/
structure Sends (treasury : Address) (t next : TreasuryState σ)
    (payments : List (Address × Nat)) : Prop where
  supply : next.usd8.totalSupply = t.usd8.totalSupply
  divisor : next.harvestBufferDivisorSlot = t.harvestBufferDivisorSlot
  left : next.usd8.balances treasury + (payments.map Prod.snd).sum = t.usd8.balances treasury
  received : ∀ account, account ≠ treasury →
    next.usd8.balances account = t.usd8.balances account + receivedBy account payments

section Payments

variable {t middle next : TreasuryState σ} {payments : List (Address × Nat)}

theorem Sends.refl (t : TreasuryState σ) : Sends self t t [] :=
  ⟨rfl, rfl, by simp, by simp⟩

theorem Sends.cons {payment : Address × Nat} (first : Sends self t middle [payment])
    (rest : Sends self middle next payments) : Sends self t next (payment :: payments) := by
  refine ⟨rest.supply.trans first.supply, rest.divisor.trans first.divisor, ?_, ?_⟩
  · have before := first.left
    have after := rest.left
    simp only [List.map_cons, List.map_nil, List.sum_cons, List.sum_nil] at before ⊢
    omega
  · intro account foreign
    rw [rest.received account foreign, first.received account foreign]
    simp [Nat.add_assoc]

/-- Paying nothing. -/
theorem Sends.zero (payee : Address) (rest : Sends self t next payments) :
    Sends self t next ((payee, 0) :: payments) := by
  refine ⟨rest.supply, rest.divisor, by simpa using rest.left, ?_⟩
  intro account foreign
  simpa using rest.received account foreign

theorem transfer_ok {usd8 moved : Usd8} {payer payee : Address} {value : Nat}
    (run : usd8.transfer payer payee value = .ok moved) :
    value ≤ usd8.balances payer ∧ moved.balances = moveBalance usd8.balances payer payee value := by
  unfold Usd8.transfer at run
  split at run
  next => cases run
  next =>
    split at run
    next enough =>
      cases run
      exact ⟨enough, rfl⟩
    next => cases run

theorem transfer_sends {moved : Usd8} {payee : Address} {value : Nat} (foreign : payee ≠ self)
    (transferred : t.usd8.transfer self payee value = .ok moved) (external : σ)
    (event : TreasuryEvent) :
    Sends self t ({ t with external := external, usd8 := moved }.emit event) [(payee, value)] := by
  obtain ⟨enough, balances⟩ := transfer_ok transferred
  refine ⟨transfer_supply transferred, rfl, ?_, ?_⟩
  · change moved.balances self + _ = _
    rw [balances, moveBalance_payer _ _ _ _ (Ne.symm foreign)]
    simp
    omega
  · intro account other
    change moved.balances account = _
    have flow := moveBalance_flow t.usd8.balances self payee account value enough
    rw [balances]
    simp only [if_neg other, Nat.add_zero] at flow
    simpa [eq_comm] using flow

theorem deliver_sends (pulls : PullsShare contracts self) {p : ProfitReceiver} {share : Nat}
    (foreign : p.receiver ≠ self) (event : TreasuryEvent)
    (run : t.deliver contracts self p share = .ok next) :
    Sends self t (next.emit event) [(p.receiver, share)] := by
  unfold deliver at run
  cases mode : p.mode with
  | directTransfer =>
      rw [mode] at run
      obtain ⟨usd8, moved, result⟩ := (bind_ok_iff _ _ _).mp run
      cases (pure_ok_iff _ _).mp result
      exact transfer_sends foreign moved t.external event
  | receiveProfitDistribution =>
      rw [mode] at run
      obtain ⟨⟨after, usd8⟩, hooked, run⟩ := (bind_ok_iff _ _ _).mp run
      obtain ⟨_, -, result⟩ := (bind_ok_iff _ _ _).mp run
      cases (pure_ok_iff _ _).mp result
      exact transfer_sends foreign (pulls ((orRevert_ok_iff _ _ _).mp hooked)) after event

/-! ## The two passes -/

abbrev addresses (receivers : List ProfitReceiver) : List Address :=
  receivers.map ProfitReceiver.receiver

abbrev weights (receivers : List ProfitReceiver) : List Nat := receivers.map ProfitReceiver.weight

/-- The first pass finds the total and, unless that is zero, the last positive weight. -/
theorem weighReceivers_ok (receivers : List ProfitReceiver) (i totalWeight lastEligible : Nat)
    {result : Nat × Nat}
    (run : weighReceivers receivers i totalWeight lastEligible = .ok result) :
    result.1 = totalWeight + (weights receivers).sum ∧
      ((∀ weight ∈ weights receivers, weight = 0) → result.2 = lastEligible) ∧
      ∀ before weight zeros, LastWeight (weights receivers) before zeros weight →
        result.2 = i + before.length := by
  induction receivers generalizing i totalWeight lastEligible with
  | nil =>
      cases (pure_ok_iff _ _).mp run
      refine ⟨rfl, fun _ => rfl, fun before weight zeros isLast => ?_⟩
      simpa using isLast.split
  | cons p later ih =>
      rw [weighReceivers] at run
      have split : (weights (p :: later)).sum = p.weight + (weights later).sum := by simp
      rcases (ite_ok_iff _ _ _ _).mp run with ⟨positive, run⟩ | ⟨none, run⟩
      · obtain ⟨raised, added, run⟩ := (bind_ok_iff _ _ _).mp run
        obtain ⟨-, raisedEq⟩ := (checkedAdd_ok_iff _ _ _ _).mp added
        obtain ⟨total, zeros, last⟩ := ih _ _ _ run
        refine ⟨by omega, fun allZero => absurd (allZero p.weight (by simp)) positive, ?_⟩
        intro before weight tail isLast
        cases before with
        | nil =>
            have same := List.cons.inj isLast.split
            have rest := zeros (fun other member => isLast.after other (same.2 ▸ member))
            simpa using rest
        | cons first before =>
            have same := List.cons.inj isLast.split
            have rest := last before weight tail ⟨same.2, isLast.positive, isLast.after⟩
            simp only [List.length_cons]
            omega
      · have zero : p.weight = 0 := not_not.mp none
        obtain ⟨total, zeros, last⟩ := ih _ _ _ run
        refine ⟨by omega, fun allZero => ?_, ?_⟩
        · exact zeros (fun other member => allZero other (List.mem_cons_of_mem _ member))
        · intro before weight tail isLast
          cases before with
          | nil =>
              have same := List.cons.inj isLast.split
              exact absurd (same.1.symm.trans zero) isLast.positive
          | cons first before =>
              have same := List.cons.inj isLast.split
              have rest := last before weight tail ⟨same.2, isLast.positive, isLast.after⟩
              simp only [List.length_cons]
              omega

/-- The second pass pays every receiver its share. -/
theorem distributeLoop_sends (pulls : PullsShare contracts self)
    (weightedRevenue totalWeight lastEligible : Nat) (receivers : List ProfitReceiver)
    (foreign : ∀ p ∈ receivers, p.receiver ≠ self) (i paid : Nat)
    (run : distributeLoop contracts self weightedRevenue totalWeight lastEligible receivers i paid
      t = .ok next) :
    Sends self t next ((addresses receivers).zip
      (shares weightedRevenue totalWeight lastEligible (weights receivers) i paid)) := by
  induction receivers generalizing i paid t with
  | nil =>
      cases (pure_ok_iff _ _).mp run
      exact .refl _
  | cons p later ih =>
      have laterForeign : ∀ q ∈ later, q.receiver ≠ self := fun q member =>
        foreign q (List.mem_cons_of_mem _ member)
      rw [distributeLoop] at run
      simp only [addresses, weights, List.map_cons, shares, List.zip_cons_cons]
      rcases (ite_ok_iff _ _ _ _).mp run with ⟨none, run⟩ | ⟨positive, run⟩
      · rw [if_pos none]
        exact (ih laterForeign _ _ run).zero p.receiver
      · obtain ⟨share, shareRun, run⟩ := (bind_ok_iff _ _ _).mp run
        obtain ⟨raised, added, run⟩ := (bind_ok_iff _ _ _).mp run
        obtain ⟨-, raisedEq⟩ := (checkedAdd_ok_iff _ _ _ _).mp added
        have shareEq : (if i = lastEligible then weightedRevenue - paid
            else floorShare weightedRevenue totalWeight p.weight) = share := by
          rcases (ite_ok_iff _ _ _ _).mp shareRun with ⟨isLast, shareRun⟩ | ⟨early, shareRun⟩
          · rw [if_pos isLast]
            exact ((checkedSub_ok_iff _ _ _).mp shareRun).2.symm
          · rw [if_neg early]
            exact ((mulDiv_ok_iff _ _ _ _).mp shareRun).2.2.symm
        rw [if_neg positive, shareEq, ← raisedEq]
        rcases (ite_ok_iff _ _ _ _).mp run with ⟨nothing, run⟩ | ⟨-, run⟩
        · rw [nothing]
          exact (ih laterForeign _ _ run).zero p.receiver
        · obtain ⟨delivered, deliverRun, run⟩ := (bind_ok_iff _ _ _).mp run
          have head := deliver_sends pulls (foreign p (by simp))
            (.revenueDistributed p.receiver share) deliverRun
          exact head.cons (ih laterForeign _ _ run)

/-! ## No pass underflows -/

/-- A subtraction below zero, or a transfer of more than there is. -/
def Underflows : TreasuryError → Prop
  | .panic .underflow => True
  | .erc20InsufficientBalance _ => True
  | _ => False

theorem transfer_avoids {usd8 : Usd8} (payer payee : Address) {value : Nat}
    (enough : value ≤ usd8.balances payer) : Avoids Underflows (usd8.transfer payer payee value) := by
  unfold Usd8.transfer
  refine avoids_ite _ _ _ (fun _ => avoids_error _ id) fun _ => ?_
  rw [dif_pos enough]
  exact avoids_ok _

theorem deliver_avoids (p : ProfitReceiver) {share : Nat} (enough : share ≤ t.usd8.balances self) :
    Avoids Underflows (t.deliver contracts self p share) := by
  unfold deliver
  cases p.mode with
  | directTransfer =>
      refine avoids_bind _ _ (transfer_avoids _ _ enough) fun usd8 _ => ?_
      exact avoids_pure _
  | receiveProfitDistribution =>
      refine avoids_bind _ _ (avoids_orRevert _ _ (fun _ => id)) fun result _ => ?_
      refine avoids_revertIf_bind _ _ _ (fun _ => id) fun _ => ?_
      exact avoids_pure _

theorem weighReceivers_avoids (receivers : List ProfitReceiver) (i totalWeight lastEligible : Nat) :
    Avoids Underflows (weighReceivers receivers i totalWeight lastEligible) := by
  induction receivers generalizing i totalWeight lastEligible with
  | nil => exact avoids_pure _
  | cons p later ih =>
      rw [weighReceivers]
      refine avoids_ite _ _ _ (fun _ => ?_) fun _ => ih _ _ _
      refine avoids_bind _ _ (avoids_checkedAdd _ _ _ id) fun raised _ => ?_
      exact ih _ _ _

/-- Receivers without weight are passed by. -/
theorem distributeLoop_zeros (weightedRevenue totalWeight lastEligible : Nat)
    (receivers : List ProfitReceiver) (none : ∀ weight ∈ weights receivers, weight = 0)
    (i paid : Nat) :
    distributeLoop contracts self weightedRevenue totalWeight lastEligible receivers i paid t =
      pure t := by
  induction receivers generalizing i with
  | nil => rfl
  | cons p later ih =>
      rw [distributeLoop, if_pos (none p.weight (by simp))]
      exact ih (fun weight member => none weight (List.mem_cons_of_mem _ member)) _

/-- What was paid so far and the floors to come fit into the revenue, so the rest for the
last receiver is no negative number. -/
theorem distributeLoop_avoids (pulls : PullsShare contracts self)
    (weightedRevenue totalWeight : Nat) (receivers : List ProfitReceiver)
    (foreign : ∀ p ∈ receivers, p.receiver ≠ self) {before zeros : List Nat} {weight : Nat}
    (isLast : LastWeight (weights receivers) before zeros weight) (i paid : Nat)
    (room : paid + (before.map (floorShare weightedRevenue totalWeight)).sum ≤ weightedRevenue)
    (held : t.usd8.balances self + paid = weightedRevenue) :
    Avoids Underflows (distributeLoop contracts self weightedRevenue totalWeight
      (i + before.length) receivers i paid t) := by
  induction receivers generalizing before i paid t with
  | nil => exact absurd isLast.split (by simp)
  | cons p later ih =>
      have laterForeign : ∀ q ∈ later, q.receiver ≠ self := fun q member =>
        foreign q (List.mem_cons_of_mem _ member)
      rw [distributeLoop]
      cases before with
      | nil =>
          have same := List.cons.inj isLast.split
          have none : ∀ other ∈ weights later, other = 0 := fun other member =>
            isLast.after other (same.2 ▸ member)
          simp only [distributeLoop_zeros _ _ _ later none]
          refine avoids_ite _ _ _ (fun _ => avoids_pure _) fun _ => ?_
          simp only [List.length_nil, Nat.add_zero, if_pos]
          refine avoids_bind _ _ (avoids_checkedSub _ _ (by omega)) fun share shareRun => ?_
          obtain ⟨-, shareEq⟩ := (checkedSub_ok_iff _ _ _).mp shareRun
          refine avoids_bind _ _ (avoids_checkedAdd _ _ _ id) fun raised _ => ?_
          refine avoids_ite _ _ _ (fun _ => avoids_pure _) fun _ => ?_
          refine avoids_bind _ _ (deliver_avoids p (by omega)) fun delivered _ => ?_
          exact avoids_pure _
      | cons first before =>
          have same := List.cons.inj isLast.split
          have tail : LastWeight (weights later) before zeros weight :=
            ⟨same.2, isLast.positive, isLast.after⟩
          have index : i + (first :: before).length = i + 1 + before.length := by
            simp only [List.length_cons]
            omega
          have firstEq : p.weight = first := same.1
          rw [index]
          simp only [List.map_cons, List.sum_cons] at room
          refine avoids_ite _ _ _ (fun none => ?_) fun _ => ?_
          · exact ih laterForeign tail _ _ (by omega) held
          rw [if_neg (by omega)]
          refine avoids_bind _ _ (avoids_mulDiv _ _ _ (fun _ => id) id) fun share shareRun => ?_
          obtain ⟨-, -, shareEq⟩ := (mulDiv_ok_iff _ _ _ _).mp shareRun
          rw [firstEq, ← floorShare] at shareEq
          refine avoids_bind _ _ (avoids_checkedAdd _ _ _ id) fun raised added => ?_
          obtain ⟨-, raisedEq⟩ := (checkedAdd_ok_iff _ _ _ _).mp added
          refine avoids_ite _ _ _ (fun nothing => ?_) fun _ => ?_
          · exact ih laterForeign tail _ _ (by omega) (by omega)
          refine avoids_bind _ _ (deliver_avoids p (by omega)) fun delivered deliverRun => ?_
          have sent := (deliver_sends pulls (foreign p (by simp))
            (.revenueDistributed p.receiver share) deliverRun).left
          simp only [List.map_cons, List.map_nil, List.sum_cons, List.sum_nil] at sent
          exact ih laterForeign tail _ _ (by omega) (by omega)

end Payments

/-! ## The surplus -/

section Surplus

variable {t next : TreasuryState σ} {harvested : Nat}

/-- What stays with the reserve: the supply and a part of it. -/
def retained (t : TreasuryState σ) : Nat :=
  t.usd8.totalSupply + t.usd8.totalSupply / t.harvestBufferDivisor

/-- What the first half of a harvest does. -/
structure Harvested (contracts : ExternalContracts σ) (treasury : Address)
    (t next : TreasuryState σ) (harvested : Nat) : Prop where
  surplus : ∃ reserve, t.getReserveBalance contracts treasury = .ok reserve ∧
    harvested = reserve * usdcToUsd8Scale - t.retained
  supply : next.usd8.totalSupply = t.usd8.totalSupply + harvested
  own : next.usd8.balances treasury = t.usd8.balances treasury + harvested
  others : ∀ account, account ≠ treasury → next.usd8.balances account = t.usd8.balances account
  divisor : next.harvestBufferDivisorSlot = t.harvestBufferDivisorSlot
  registry : next.registry = t.registry
  receivers : next.profitReceivers = t.profitReceivers

theorem mint_balances {usd8 after : Usd8} {account : Address} {value : Nat}
    (run : usd8.mint account value = .ok after) :
    after.balances = Function.update usd8.balances account (usd8.balances account + value) := by
  unfold Usd8.mint at run
  split at run
  next => cases run
  next =>
    split at run
    next =>
      cases run
      rfl
    next => cases run

theorem harvestSurplus_ok (run : t.harvestSurplus contracts self = .ok (next, harvested)) :
    Harvested contracts self t next harvested := by
  obtain ⟨reserve, valued, run⟩ := (bind_ok_iff _ _ _).mp run
  obtain ⟨reserveInUsd8, scaled, run⟩ := (bind_ok_iff _ _ _).mp run
  obtain ⟨buffer, divided, run⟩ := (bind_ok_iff _ _ _).mp run
  obtain ⟨retain, retainRun, run⟩ := (bind_ok_iff _ _ _).mp run
  obtain ⟨-, scaledEq⟩ := (checkedMul_ok_iff _ _ _ _).mp scaled
  obtain ⟨-, bufferEq⟩ := (checkedDiv_ok_iff _ _ _).mp divided
  obtain ⟨-, retainEq⟩ := (checkedAdd_ok_iff _ _ _ _).mp retainRun
  have retainedEq : retain = t.retained := by rw [retainEq, bufferEq, retained]
  rcases (ite_ok_iff _ _ _ _).mp run with ⟨above, run⟩ | ⟨below, result⟩
  · obtain ⟨surplus, subtracted, run⟩ := (bind_ok_iff _ _ _).mp run
    obtain ⟨_, -, run⟩ := (bind_ok_iff _ _ _).mp run
    obtain ⟨usd8, minted, result⟩ := (bind_ok_iff _ _ _).mp run
    obtain ⟨-, surplusEq⟩ := (checkedSub_ok_iff _ _ _).mp subtracted
    have balances := mint_balances minted
    cases (pure_ok_iff _ _).mp result
    refine ⟨⟨reserve, valued, by rw [surplusEq, scaledEq, retainedEq]⟩, mint_supply minted, ?_, ?_,
      rfl, rfl, rfl⟩
    · change usd8.balances self = _
      rw [balances, Function.update_self]
    · intro account other
      change usd8.balances account = _
      rw [balances, Function.update_of_ne other]
  · cases (pure_ok_iff _ _).mp result
    exact ⟨⟨reserve, valued, by omega⟩, rfl, rfl, fun _ _ => rfl, rfl, rfl, rfl⟩

/-- What was minted is covered by the reserve it was minted from. -/
theorem Harvested.covered (half : Harvested contracts self t next harvested)
    (minted : harvested ≠ 0) :
    ∃ reserve, t.getReserveBalance contracts self = .ok reserve ∧
      next.usd8.totalSupply ≤ reserve * usdcToUsd8Scale := by
  obtain ⟨reserve, valued, harvestedEq⟩ := half.surplus
  have supply := half.supply
  have above : t.usd8.totalSupply ≤ t.retained := Nat.le_add_right _ _
  exact ⟨reserve, valued, by omega⟩

/-- Once harvested, a reserve has no surplus left. -/
theorem Harvested.again {later last : TreasuryState σ} {harvestedAgain : Nat}
    (half : Harvested contracts self t next harvested)
    (supply : later.usd8.totalSupply = next.usd8.totalSupply)
    (divisor : later.harvestBufferDivisorSlot = next.harvestBufferDivisorSlot)
    (unchanged : later.getReserveBalance contracts self = t.getReserveBalance contracts self)
    (second : Harvested contracts self later last harvestedAgain) : harvestedAgain = 0 := by
  obtain ⟨reserve, valued, harvestedEq⟩ := half.surplus
  obtain ⟨reserveAgain, valuedAgain, againEq⟩ := second.surplus
  have same : reserveAgain = reserve := by
    rw [unchanged, valued] at valuedAgain
    exact (Except.ok.inj valuedAgain).symm
  have divisorEq : later.harvestBufferDivisor = t.harvestBufferDivisor := by
    rw [harvestBufferDivisor, divisor, half.divisor, harvestBufferDivisor]
  have supplyEq : later.usd8.totalSupply = t.usd8.totalSupply + harvested :=
    supply.trans half.supply
  have buffer : t.usd8.totalSupply / t.harvestBufferDivisor ≤
      (t.usd8.totalSupply + harvested) / t.harvestBufferDivisor :=
    Nat.div_le_div_right (Nat.le_add_right _ _)
  rw [same, retained, divisorEq, supplyEq] at againEq
  unfold retained at harvestedEq
  omega

theorem harvestSurplus_avoids : Avoids Underflows (t.harvestSurplus contracts self) := by
  refine avoids_bind _ _ (reserveLoop_avoids (fun _ => id) id _ _ _) fun reserve _ => ?_
  refine avoids_bind _ _ (avoids_checkedMul _ _ _ id) fun reserveInUsd8 _ => ?_
  refine avoids_bind _ _ (avoids_checkedDiv _ _ (fun _ => id)) fun buffer _ => ?_
  refine avoids_bind _ _ (avoids_checkedAdd _ _ _ id) fun retain _ => ?_
  refine avoids_ite _ _ _ (fun above => ?_) fun _ => avoids_pure _
  refine avoids_bind _ _ (avoids_checkedSub _ _ (by omega)) fun harvested _ => ?_
  refine avoids_revertIf_bind _ _ _ (fun _ => id) fun _ => ?_
  refine avoids_bind _ _ (usd8_mint_avoids (fun _ => id) id _ _ _) fun usd8 _ => ?_
  exact avoids_pure _

end Surplus

/-! ## Conservation -/

section Conservation

variable {t next : TreasuryState σ}

/-- What the second half of a harvest sends. -/
structure Distributed (treasury : Address) (t next : TreasuryState σ)
    (distributed protocolFee : Nat) (shares : List Nat) : Prop where
  fee : protocolFee =
    distributed * t.registry.protocolFeeConfig.reserveYieldFeeBps / 10000
  outgoing : protocolFee + shares.sum = distributed
  counted : shares.length = t.profitReceivers.length
  exact : ∀ (index : Nat) (p : ProfitReceiver) (share : Nat),
    t.profitReceivers[index]? = some p → shares[index]? = some share →
    ¬ IsLast (weights t.profitReceivers) index →
    share = floorShare (distributed - protocolFee) (weights t.profitReceivers).sum p.weight
  last : ∀ (index : Nat) (p : ProfitReceiver) (share : Nat),
    t.profitReceivers[index]? = some p → shares[index]? = some share →
    floorShare (distributed - protocolFee) (weights t.profitReceivers).sum p.weight ≤ share
  sends : Sends treasury t next
    ((t.registry.protocolFeeConfig.receiver, protocolFee) ::
      (addresses t.profitReceivers).zip shares)

/-- A fee rate within its cap leaves a revenue. -/
theorem protocolFee_le {bps : Nat} (capped : bps ≤ maxProtocolFeeBps) (distributed : Nat) :
    distributed * bps / 10000 ≤ distributed := by
  have small : bps ≤ 10000 := capped.trans (by decide)
  apply Nat.div_le_of_le_mul
  rw [Nat.mul_comm]
  exact Nat.mul_le_mul_right _ small

/-- The fee is paid unless it is nothing. -/
theorem charge_ok {charged : TreasuryState σ} {payee : Address} {protocolFee : Nat}
    (foreign : payee ≠ self)
    (run : (if protocolFee ≠ 0 then do
        let usd8 ← t.usd8.transfer self payee protocolFee
        pure ({ t with usd8 := usd8 }.emit (.protocolFeePaid payee protocolFee))
      else pure t) = .ok charged) :
    charged.profitReceivers = t.profitReceivers ∧
      Sends self t charged [(payee, protocolFee)] := by
  rcases (ite_ok_iff _ _ _ _).mp run with ⟨-, run⟩ | ⟨nothing, result⟩
  · obtain ⟨usd8, moved, result⟩ := (bind_ok_iff _ _ _).mp run
    cases (pure_ok_iff _ _).mp result
    exact ⟨rfl, transfer_sends foreign moved t.external _⟩
  · cases (pure_ok_iff _ _).mp result
    rw [not_not.mp nothing]
    exact ⟨rfl, (Sends.refl t).zero payee⟩

theorem distributeRevenue_ok (pulls : PullsShare contracts self)
    (feeForeign : t.registry.protocolFeeConfig.receiver ≠ self)
    (foreign : ∀ p ∈ t.profitReceivers, p.receiver ≠ self) {distributed : Nat}
    (run : t.distributeRevenue contracts self distributed = .ok next) :
    ∃ protocolFee shares, Distributed self t next distributed protocolFee shares := by
  obtain ⟨⟨totalWeight, lastEligible⟩, weighed, run⟩ := (bind_ok_iff _ _ _).mp run
  obtain ⟨_, eligible, run⟩ := (bind_ok_iff _ _ _).mp run
  obtain ⟨protocolFee, feeRun, run⟩ := (bind_ok_iff _ _ _).mp run
  obtain ⟨weightedRevenue, revenueRun, run⟩ := (bind_ok_iff _ _ _).mp run
  obtain ⟨charged, chargeRun, run⟩ := (bind_ok_iff _ _ _).mp run
  obtain ⟨-, -, feeEq⟩ := (mulDiv_ok_iff _ _ _ _).mp feeRun
  obtain ⟨feeLe, revenueEq⟩ := (checkedSub_ok_iff _ _ _).mp revenueRun
  obtain ⟨totalEq, -, lastEq⟩ := weighReceivers_ok _ _ _ _ weighed
  have positive := (revertIf_ok_iff _ _ _).mp eligible
  simp only [Nat.zero_add] at totalEq lastEq positive
  rcases zeros_or_lastWeight (weights t.profitReceivers) with zeros | ⟨before, weight, zeros, isLast⟩
  · exact absurd (totalEq.trans (List.sum_eq_zero zeros)) positive
  have lastIndex := lastEq before weight zeros isLast
  obtain ⟨same, charge⟩ := charge_ok feeForeign chargeRun
  rw [same, totalEq, lastIndex] at run
  have rest := distributeLoop_sends pulls _ _ _ t.profitReceivers foreign _ _ run
  refine ⟨protocolFee, shares weightedRevenue (weights t.profitReceivers).sum before.length
    (weights t.profitReceivers) 0 0, feeEq, ?_, by simp, ?_, ?_, ?_⟩
  · rw [sum_shares isLast]
    omega
  · intro index p share found got other
    have weightFound : (weights t.profitReceivers)[index]? = some p.weight := by simp [found]
    rw [isLast.isLast_iff] at other
    rw [← revenueEq]
    exact isLast.share_exact weightFound got other
  · intro index p share found got
    have weightFound : (weights t.profitReceivers)[index]? = some p.weight := by simp [found]
    rw [← revenueEq]
    by_cases here : index = before.length
    · subst here
      have same : p.weight = weight := by
        rw [isLast.split] at weightFound
        simpa [eq_comm] using weightFound
      rw [same]
      exact isLast.share_last got
    · exact (isLast.share_exact weightFound got here).ge
  · exact charge.cons rest

theorem distributeRevenue_avoids (pulls : PullsShare contracts self)
    (capped : t.registry.protocolFeeConfig.reserveYieldFeeBps ≤ maxProtocolFeeBps)
    (feeForeign : t.registry.protocolFeeConfig.receiver ≠ self)
    (foreign : ∀ p ∈ t.profitReceivers, p.receiver ≠ self) :
    Avoids Underflows (t.distributeRevenue contracts self (t.usd8.balances self)) := by
  refine avoids_bind _ _ (weighReceivers_avoids _ _ _ _) fun weighed weighedRun => ?_
  refine avoids_revertIf_bind _ _ _ (fun _ => id) fun positive => ?_
  refine avoids_bind _ _ (avoids_mulDiv _ _ _ (fun _ => id) id) fun protocolFee feeRun => ?_
  obtain ⟨-, -, feeEq⟩ := (mulDiv_ok_iff _ _ _ _).mp feeRun
  have feeLe : protocolFee ≤ t.usd8.balances self := by
    rw [feeEq]
    exact protocolFee_le capped _
  refine avoids_bind _ _ (avoids_checkedSub _ _ (by omega)) fun weightedRevenue revenueRun => ?_
  obtain ⟨-, revenueEq⟩ := (checkedSub_ok_iff _ _ _).mp revenueRun
  obtain ⟨totalEq, -, lastEq⟩ := weighReceivers_ok _ _ _ _ weighedRun
  simp only [Nat.zero_add] at totalEq lastEq positive
  rcases zeros_or_lastWeight (weights t.profitReceivers) with zeros | ⟨before, weight, zeros, isLast⟩
  · exact absurd (totalEq.trans (List.sum_eq_zero zeros)) positive
  have room := isLast.floor_le_rest weightedRevenue
  have lastIndex : weighed.2 = 0 + before.length := by
    rw [Nat.zero_add]
    exact lastEq before weight zeros isLast
  rw [totalEq, lastIndex]
  refine avoids_bind _ _ (avoids_ite _ _ _ (fun _ => ?_) fun _ => avoids_pure _)
    fun charged chargeRun => ?_
  · refine avoids_bind _ _ (transfer_avoids _ _ feeLe) fun usd8 _ => ?_
    exact avoids_pure _
  · obtain ⟨same, charge⟩ := charge_ok feeForeign chargeRun
    have sent := charge.left
    simp only [List.map_cons, List.map_nil, List.sum_cons, List.sum_nil] at sent
    rw [same]
    exact distributeLoop_avoids pulls _ _ _ foreign isLast _ _ (by omega) (by omega)

/-- What a harvest does to the balances, the supply and the next harvest. -/
structure Conserved (contracts : ExternalContracts σ) (treasury : Address)
    (t next : TreasuryState σ) (harvested distributed protocolFee : Nat) (shares : List Nat) :
    Prop where
  pool : distributed = t.usd8.balances treasury + harvested
  fee : protocolFee =
    distributed * t.registry.protocolFeeConfig.reserveYieldFeeBps / 10000
  outgoing : protocolFee + shares.sum = distributed
  left : next.usd8.balances treasury = 0
  counted : shares.length = t.profitReceivers.length
  exact : ∀ (index : Nat) (p : ProfitReceiver) (share : Nat),
    t.profitReceivers[index]? = some p → shares[index]? = some share →
    ¬ IsLast (weights t.profitReceivers) index →
    share = floorShare (distributed - protocolFee) (weights t.profitReceivers).sum p.weight
  last : ∀ (index : Nat) (p : ProfitReceiver) (share : Nat),
    t.profitReceivers[index]? = some p → shares[index]? = some share →
    IsLast (weights t.profitReceivers) index →
    floorShare (distributed - protocolFee) (weights t.profitReceivers).sum p.weight ≤ share
  received : ∀ account, account ≠ treasury →
    next.usd8.balances account = t.usd8.balances account +
      ((if t.registry.protocolFeeConfig.receiver = account then protocolFee else 0) +
        receivedBy account ((addresses t.profitReceivers).zip shares))
  supply : next.usd8.totalSupply = t.usd8.totalSupply + harvested
  covered : harvested ≠ 0 → ∃ reserve, t.getReserveBalance contracts treasury = .ok reserve ∧
    next.usd8.totalSupply ≤ reserve * usdcToUsd8Scale
  again : ∀ (sender : Address) (last : TreasuryState σ) (harvestedAgain distributedAgain : Nat),
    next.getReserveBalance contracts treasury = t.getReserveBalance contracts treasury →
    next.harvestAndDistribute contracts treasury sender =
      .ok (last, harvestedAgain, distributedAgain) → harvestedAgain = 0

theorem harvestAndDistribute_ok {sender : Address} {harvested distributed : Nat}
    (run : t.harvestAndDistribute contracts self sender = .ok (next, harvested, distributed)) :
    ∃ minted, Harvested contracts self t minted harvested ∧
      distributed = minted.usd8.balances self ∧
      (distributed = 0 ∧ next = minted ∨
        minted.distributeRevenue contracts self distributed = .ok next) := by
  obtain ⟨_, -, run⟩ := (bind_ok_iff _ _ _).mp run
  obtain ⟨_, -, run⟩ := (bind_ok_iff _ _ _).mp run
  obtain ⟨⟨minted, amount⟩, harvestRun, run⟩ := (bind_ok_iff _ _ _).mp run
  have half := harvestSurplus_ok harvestRun
  rcases (ite_ok_iff _ _ _ _).mp run with ⟨nothing, result⟩ | ⟨-, run⟩
  · cases (pure_ok_iff _ _).mp result
    exact ⟨_, half, rfl, .inl ⟨nothing, rfl⟩⟩
  · obtain ⟨last, distributeRun, result⟩ := (bind_ok_iff _ _ _).mp run
    cases (pure_ok_iff _ _).mp result
    exact ⟨_, half, rfl, .inr distributeRun⟩

/-- Of an empty pool everybody gets nothing. -/
theorem distributed_nothing (t : TreasuryState σ) :
    Distributed self t t 0 0 (List.replicate t.profitReceivers.length 0) where
  fee := by simp
  outgoing := by simp
  counted := by simp
  exact index p share _ got _ := by
    have zero := (List.mem_replicate.mp (List.mem_of_getElem? got)).2
    simp [zero, floorShare]
  last index p share _ _ := by simp [floorShare]
  sends := by
    have nothing : ∀ (accounts : List Address) (count : Nat),
        Sends self t t (accounts.zip (List.replicate count 0)) := by
      intro accounts
      induction accounts with
      | nil => exact fun _ => .refl t
      | cons account later ih =>
          intro count
          cases count with
          | zero => exact .refl t
          | succ count => exact (ih count).zero account
    exact (nothing _ _).zero _

/-- Conservation of a harvest, and no underflow on its way. -/
theorem harvest_conserves (pulls : PullsShare contracts self) (t : TreasuryState σ)
    (capped : t.registry.protocolFeeConfig.reserveYieldFeeBps ≤ maxProtocolFeeBps)
    (feeForeign : t.registry.protocolFeeConfig.receiver ≠ self)
    (foreign : ∀ p ∈ t.profitReceivers, p.receiver ≠ self) (sender : Address) :
    Avoids Underflows (t.harvestAndDistribute contracts self sender) ∧
      ∀ next harvested distributed,
        t.harvestAndDistribute contracts self sender = .ok (next, harvested, distributed) →
        ∃ protocolFee shares,
          Conserved contracts self t next harvested distributed protocolFee shares := by
  constructor
  · refine avoids_bind _ _ (ofRegistry_avoids (fun _ => id) _) fun _ _ => ?_
    refine avoids_bind _ _ (ofRegistry_avoids (fun _ => id) _) fun _ _ => ?_
    refine avoids_bind _ _ harvestSurplus_avoids fun minted harvestRun => ?_
    have half := harvestSurplus_ok harvestRun
    refine avoids_ite _ _ _ (fun _ => avoids_pure _) fun _ => ?_
    have revenue : Avoids Underflows
        (minted.1.distributeRevenue contracts self (minted.1.usd8.balances self)) := by
      apply distributeRevenue_avoids pulls
      · rw [half.registry]
        exact capped
      · rw [half.registry]
        exact feeForeign
      · rw [half.receivers]
        exact foreign
    exact avoids_bind _ _ revenue fun _ _ => avoids_pure _
  · intro next harvested distributed run
    obtain ⟨minted, half, poolEq, rest⟩ := harvestAndDistribute_ok run
    have sent : ∃ protocolFee shares,
        Distributed self minted next distributed protocolFee shares := by
      rcases rest with ⟨nothing, rfl⟩ | distributeRun
      · rw [nothing]
        exact ⟨0, _, distributed_nothing next⟩
      · apply distributeRevenue_ok pulls _ _ distributeRun
        · rw [half.registry]
          exact feeForeign
        · rw [half.receivers]
          exact foreign
    obtain ⟨protocolFee, shares, sent⟩ := sent
    have sends := sent.sends
    have left := sends.left
    have paid : (((minted.registry.protocolFeeConfig.receiver, protocolFee) ::
        (addresses minted.profitReceivers).zip shares).map Prod.snd).sum = distributed := by
      rw [List.map_cons, List.sum_cons, List.map_snd_zip (by simp [sent.counted]), sent.outgoing]
    refine ⟨protocolFee, shares, poolEq.trans half.own, ?_, sent.outgoing, by omega, ?_, ?_, ?_, ?_,
      sends.supply.trans half.supply, ?_, ?_⟩
    · rw [← half.registry]
      exact sent.fee
    · rw [← half.receivers]
      exact sent.counted
    · rw [← half.receivers]
      exact sent.exact
    · rw [← half.receivers]
      exact fun index p share found got _ => sent.last index p share found got
    · intro account other
      rw [sends.received account other, half.others account other, receivedBy_cons, half.registry,
        half.receivers]
    · intro positive
      rw [sends.supply]
      exact half.covered positive
    · intro second last harvestedAgain distributedAgain unchanged again
      obtain ⟨mintedAgain, halfAgain, -⟩ := harvestAndDistribute_ok again
      exact half.again sends.supply sends.divisor unchanged halfAgain

/-- An account that is listed once gets its one payment. -/
theorem receivedBy_of_distinct {payments : List (Address × Nat)} {account : Address} {amount : Nat}
    (distinct : (payments.map Prod.fst).Nodup) (member : (account, amount) ∈ payments) :
    receivedBy account payments = amount := by
  induction payments with
  | nil => cases member
  | cons payment later ih =>
      rw [List.map_cons, List.nodup_cons] at distinct
      rw [receivedBy_cons]
      have absent : ∀ (others : List (Address × Nat)) (other : Address),
          other ∉ others.map Prod.fst → receivedBy other others = 0 := by
        intro others other unlisted
        apply List.sum_eq_zero
        intro value valueMember
        obtain ⟨entry, entryMember, rfl⟩ := List.mem_map.mp valueMember
        rw [if_neg (fun same => unlisted (List.mem_map.mpr ⟨entry, entryMember, same⟩))]
      rcases List.mem_cons.mp member with rfl | inLater
      · rw [if_pos rfl, absent later _ distinct.1, Nat.add_zero]
      · have differ : payment.1 ≠ account := by
          rintro rfl
          exact distinct.1 (List.mem_map.mpr ⟨_, inLater, rfl⟩)
        rw [if_neg differ, Nat.zero_add, ih distinct.2 inLater]

/-- A registered receiver gets its own share, and the fee if it is the one to get it. -/
theorem Conserved.balance_of_receiver {harvested distributed protocolFee : Nat} {shares : List Nat}
    (conserved : Conserved contracts self t next harvested distributed protocolFee shares)
    (sound : ReceiversSound self t.profitReceivers) {index : Nat} {p : ProfitReceiver} {share : Nat}
    (found : t.profitReceivers[index]? = some p) (got : shares[index]? = some share) :
    next.usd8.balances p.receiver = t.usd8.balances p.receiver +
      ((if t.registry.protocolFeeConfig.receiver = p.receiver then protocolFee else 0) +
        share) := by
  have own : receivedBy p.receiver ((addresses t.profitReceivers).zip shares) = share := by
    apply receivedBy_of_distinct
    · rw [List.map_fst_zip (by simp [conserved.counted])]
      exact sound.distinct
    · apply List.mem_of_getElem? (i := index)
      simp [List.getElem?_zip_eq_some, found, got]
  rw [conserved.received p.receiver (sound.foreign p (List.mem_of_getElem? found)), own]

end Conservation

end TreasuryState

theorem vaultContracts_pulls (treasury : Address) :
    TreasuryState.PullsShare (vaultContracts treasury) treasury := by
  intro vaults after usd8 moved receiver share run
  simp only [vaultContracts] at run
  split at run
  next transferred =>
    cases run
    exact transferred
  next => cases run

namespace SampleTreasury

/-- A receiver without weight between two with one, and another at the end. -/
def sharing : TreasuryState VaultState :=
  { backed with profitReceivers :=
      [⟨saver, 3, .receiveProfitDistribution⟩, ⟨Address.ofNat 81, 0, .directTransfer⟩,
        ⟨alice, 4, .directTransfer⟩, ⟨Address.ofNat 82, 0, .receiveProfitDistribution⟩] }

end SampleTreasury

open SampleTreasury in
/-- A surplus of a hundred units less the buffer, split over two of four receivers. -/
theorem sampleTreasury_conserves : ∃ next harvested distributed protocolFee shares,
    sharing.harvestAndDistribute (vaultContracts self) self timelock =
      .ok (next, harvested, distributed) ∧ harvested = 99100000000000 ∧
    TreasuryState.Conserved (vaultContracts self) self sharing next harvested distributed
      protocolFee shares := by
  have conserves := TreasuryState.harvest_conserves (vaultContracts_pulls self) sharing
    (by decide) (by decide) (by decide) timelock
  have ran : (match sharing.harvestAndDistribute (vaultContracts self) self timelock with
      | .ok (_, harvested, _) => harvested == 99100000000000
      | .error _ => false) = true := by decide +kernel
  split at ran
  next next harvested distributed run =>
    obtain ⟨protocolFee, shares, conserved⟩ := conserves.2 next harvested distributed run
    exact ⟨next, harvested, distributed, protocolFee, shares, run, beq_iff_eq.mp ran, conserved⟩
  next => cases ran

end Usd8Core.Treasury
