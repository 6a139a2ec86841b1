import Usd8Core.Pool.PoolChanges
import Usd8Core.Pool.SettledExits

/-!
# Claiming from a settled epoch

A freshly settled epoch holds its assets for all its shares.  Whoever collects
gets the floor of the pro-rata part, the last one what the floors left over, so
in every order everything is paid and nobody is short by more than the rounding.
-/

set_option autoImplicit false

namespace Usd8Core.Pool

open Usd8Core.Lib.ByteWords
open Usd8Core.Lib.CheckedCall
open Usd8Core.Lib.FiniteLedger
open Usd8Core.Lib.TraceRun
open Usd8Core.Chain
open Usd8Core.Insurance

/-! ## Collecting from a fresh receipt -/

namespace Receipt

/-- The pro-rata part of a user, rounded down. -/
def part (receipt : Receipt) (user : Address) : Nat :=
  receipt.epoch.totalAssets * receipt.shares user / receipt.epoch.totalShares

/-- What holds after `count` users have collected: the assets left are worth the shares
left, and at most what the floors of those users have left behind more. -/
structure Balanced (count : Nat) (receipt : Receipt) : Prop where
  shares : ∑ user, receipt.shares user = receipt.epoch.remainingShares
  positive : 0 < receipt.epoch.totalShares
  covered : receipt.epoch.totalAssets * receipt.epoch.remainingShares ≤
    receipt.epoch.remainingAssets * receipt.epoch.totalShares
  rounded : receipt.epoch.remainingAssets * receipt.epoch.totalShares ≤
    receipt.epoch.totalAssets * receipt.epoch.remainingShares +
      count * (receipt.epoch.totalShares - 1)
  drained : receipt.epoch.remainingShares = 0 → receipt.epoch.remainingAssets = 0

variable {receipt : Receipt} {count : Nat} {user : Address}

theorem Fresh.balanced (fresh : receipt.Fresh) : receipt.Balanced 0 := by
  refine ⟨?_, fresh.positive, ?_, ?_, ?_⟩
  · rw [fresh.whole, fresh.shares]
  · rw [fresh.shares, fresh.assets]
  · rw [fresh.shares, fresh.assets]
    exact Nat.le_add_right _ _
  · intro none
    have positive := fresh.positive
    rw [fresh.shares] at none
    omega

theorem Balanced.shares_le (balanced : receipt.Balanced count) (user : Address) :
    receipt.shares user ≤ receipt.epoch.remainingShares := by
  rw [← balanced.shares]
  exact Finset.single_le_sum (f := receipt.shares) (fun _ _ => Nat.zero_le _)
    (Finset.mem_univ user)

/-- No subtraction underflows: the assets left cover the part of every holder. -/
theorem Balanced.part_le (balanced : receipt.Balanced count) (user : Address) :
    receipt.part user ≤ receipt.epoch.remainingAssets := by
  apply Nat.le_of_mul_le_mul_right _ balanced.positive
  calc receipt.part user * receipt.epoch.totalShares
      ≤ receipt.epoch.totalAssets * receipt.shares user := Nat.div_mul_le_self _ _
    _ ≤ receipt.epoch.totalAssets * receipt.epoch.remainingShares :=
        Nat.mul_le_mul_left _ (balanced.shares_le user)
    _ ≤ receipt.epoch.remainingAssets * receipt.epoch.totalShares := balanced.covered

theorem Balanced.owed_le (balanced : receipt.Balanced count) (user : Address) :
    receipt.owed user ≤ receipt.epoch.remainingAssets := by
  unfold owed
  split
  · exact le_rfl
  · exact balanced.part_le user

/-- A floor loses less than one unit of the total. -/
theorem Balanced.lt_part (balanced : receipt.Balanced count) (user : Address) :
    receipt.epoch.totalAssets * receipt.shares user ≤
      receipt.part user * receipt.epoch.totalShares + (receipt.epoch.totalShares - 1) := by
  have positive := balanced.positive
  have split := Nat.div_add_mod (receipt.epoch.totalAssets * receipt.shares user)
    receipt.epoch.totalShares
  have below := Nat.mod_lt (receipt.epoch.totalAssets * receipt.shares user) positive
  unfold part
  rw [Nat.mul_comm (_ / _)]
  omega

theorem collect_shares_sum (receipt : Receipt) (user : Address) :
    ∑ account, (receipt.collect user).shares account + receipt.shares user =
      ∑ account, receipt.shares account := by
  have changed := sum_differ_at receipt.shares (receipt.collect user).shares user
    (Finset.mem_univ user) (fun other _ differ => Function.update_of_ne differ _ _)
  have emptied : (receipt.collect user).shares user = 0 := Function.update_self ..
  rw [emptied] at changed
  omega

theorem Balanced.collect (balanced : receipt.Balanced count) (user : Address) :
    (receipt.collect user).Balanced (count + 1) := by
  have inside := balanced.shares_le user
  have sum := collect_shares_sum receipt user
  rw [balanced.shares] at sum
  have shares : ∑ account, (receipt.collect user).shares account =
      (receipt.collect user).epoch.remainingShares := by
    change _ = receipt.epoch.remainingShares - receipt.shares user
    omega
  by_cases last : receipt.shares user = receipt.epoch.remainingShares
  · -- the last holder takes everything
    have noShares : (receipt.collect user).epoch.remainingShares = 0 := by
      change receipt.epoch.remainingShares - receipt.shares user = 0
      omega
    have noAssets : (receipt.collect user).epoch.remainingAssets = 0 := by
      change receipt.epoch.remainingAssets - receipt.owed user = 0
      rw [owed, if_pos last, Nat.sub_self]
    refine ⟨shares, balanced.positive, ?_, ?_, fun _ => noAssets⟩
    · rw [noShares, Nat.mul_zero]
      exact Nat.zero_le _
    · rw [noAssets, Nat.zero_mul]
      exact Nat.zero_le _
  · have owedEq : receipt.owed user = receipt.part user := if_neg last
    have assetsEq : (receipt.collect user).epoch.remainingAssets =
        receipt.epoch.remainingAssets - receipt.part user := by
      rw [← owedEq]
      rfl
    have sharesEq : (receipt.collect user).epoch.remainingShares =
        receipt.epoch.remainingShares - receipt.shares user := rfl
    have floor : receipt.part user * receipt.epoch.totalShares ≤
        receipt.epoch.totalAssets * receipt.shares user := Nat.div_mul_le_self _ _
    have loss := balanced.lt_part user
    have covered := balanced.covered
    have rounded := balanced.rounded
    refine ⟨shares, balanced.positive, ?_, ?_, ?_⟩
    · rw [assetsEq, sharesEq, Nat.mul_sub, Nat.sub_mul]
      change receipt.epoch.totalAssets * receipt.epoch.remainingShares -
        receipt.epoch.totalAssets * receipt.shares user ≤
        receipt.epoch.remainingAssets * receipt.epoch.totalShares -
          receipt.part user * receipt.epoch.totalShares
      omega
    · rw [assetsEq, sharesEq, Nat.mul_sub, Nat.sub_mul, Nat.add_mul, Nat.one_mul]
      change receipt.epoch.remainingAssets * receipt.epoch.totalShares -
          receipt.part user * receipt.epoch.totalShares ≤
        receipt.epoch.totalAssets * receipt.epoch.remainingShares -
          receipt.epoch.totalAssets * receipt.shares user +
            (count * (receipt.epoch.totalShares - 1) + (receipt.epoch.totalShares - 1))
      have insideScaled := Nat.mul_le_mul_left receipt.epoch.totalAssets inside
      omega
    · intro none
      omega

/-- The last holder gets his part and at most one unit for every user before him and
himself more, less one. -/
theorem Balanced.remaining_lt (balanced : receipt.Balanced count) (user : Address)
    (last : receipt.shares user = receipt.epoch.remainingShares) :
    receipt.epoch.remainingAssets < receipt.part user + (count + 1) := by
  have positive := balanced.positive
  have rounded := balanced.rounded
  have loss := balanced.lt_part user
  rw [← last] at rounded
  apply Nat.lt_of_mul_lt_mul_right (a := receipt.epoch.totalShares)
  have units : (count + 1) * (receipt.epoch.totalShares - 1) <
      (count + 1) * receipt.epoch.totalShares :=
    Nat.mul_lt_mul_of_pos_left (by omega) (Nat.succ_pos count)
  rw [Nat.add_mul (count) 1, Nat.one_mul] at units
  rw [Nat.add_mul (receipt.part user)]
  omega

/-! ## Collecting in turn -/

/-- Holders that collect one after another, each once. -/
structure InTurn (receipt : Receipt) (users : List Address) : Prop where
  once : users.Nodup
  holders : ∀ user ∈ users, receipt.shares user ≠ 0

theorem after_shares (receipt : Receipt) (users : List Address) (user : Address) :
    (receipt.after users).shares user = if user ∈ users then 0 else receipt.shares user := by
  induction users generalizing receipt with
  | nil => simp [after]
  | cons first later ih =>
      have step : receipt.after (first :: later) = (receipt.collect first).after later := rfl
      rw [step, ih]
      by_cases same : user = first
      · subst same
        have emptied : (receipt.collect user).shares user = 0 := Function.update_self ..
        simp [emptied]
      · have kept : (receipt.collect first).shares user = receipt.shares user :=
          Function.update_of_ne same _ _
        simp [same, kept]

theorem after_shares_outside (receipt : Receipt) {users : List Address} {user : Address}
    (outside : user ∉ users) : (receipt.after users).shares user = receipt.shares user := by
  rw [after_shares, if_neg outside]

theorem after_totalShares (receipt : Receipt) (users : List Address) :
    (receipt.after users).epoch.totalShares = receipt.epoch.totalShares := by
  induction users generalizing receipt with
  | nil => rfl
  | cons user later ih => exact ih (receipt.collect user)

theorem Balanced.after (balanced : receipt.Balanced count) (users : List Address) :
    (receipt.after users).Balanced (count + users.length) := by
  induction users generalizing receipt count with
  | nil => exact balanced
  | cons user later ih =>
      have step := ih (balanced.collect user)
      rw [List.length_cons, Nat.add_comm later.length, ← Nat.add_assoc]
      exact step

/-- What was paid and what is left are the assets of the epoch. -/
theorem Balanced.payouts_sum (balanced : receipt.Balanced count) (users : List Address) :
    ((receipt.payouts users).map Prod.snd).sum + (receipt.after users).epoch.remainingAssets =
      receipt.epoch.remainingAssets := by
  induction users generalizing receipt count with
  | nil => exact Nat.zero_add _
  | cons user later ih =>
      have rest := ih (balanced.collect user)
      have enough := balanced.owed_le user
      have left : (receipt.collect user).epoch.remainingAssets =
          receipt.epoch.remainingAssets - receipt.owed user := rfl
      have step : receipt.after (user :: later) = (receipt.collect user).after later := rfl
      rw [payouts, List.map_cons, List.sum_cons, step]
      omega

theorem InTurn.snoc {users : List Address} (turn : receipt.InTurn users)
    (holds : (receipt.after users).shares user ≠ 0) : receipt.InTurn (users ++ [user]) := by
  rw [after_shares] at holds
  have absent : user ∉ users := by
    intro member
    rw [if_pos member] at holds
    exact holds rfl
  rw [if_neg absent] at holds
  refine ⟨?_, ?_⟩
  · rw [List.nodup_append]
    refine ⟨turn.once, List.nodup_singleton _, ?_⟩
    rintro other member _ same rfl
    rw [List.mem_singleton] at same
    subst same
    exact absent member
  · intro other member
    rcases List.mem_append.mp member with earlier | same
    · exact turn.holders other earlier
    · rw [List.mem_singleton.mp same]
      exact holds

theorem payouts_users (receipt : Receipt) (users : List Address) :
    (receipt.payouts users).map Prod.fst = users := by
  induction users generalizing receipt with
  | nil => rfl
  | cons user later ih => rw [payouts, List.map_cons, ih]

/-- Each payout is what the receipt owes once those before have collected. -/
theorem payouts_split (receipt : Receipt) (before later : List Address) (user : Address) :
    receipt.payouts (before ++ user :: later) = receipt.payouts before ++
      (user, (receipt.after before).owed user) :: (receipt.after (before ++ [user])).payouts later := by
  induction before generalizing receipt with
  | nil => rfl
  | cons first rest ih => rw [List.cons_append, payouts, ih (receipt.collect first)]; rfl

theorem part_after (receipt : Receipt) (before : List Address) (user : Address)
    (absent : user ∉ before) : (receipt.after before).part user = receipt.part user := by
  rw [part, part, after_totalAssets, after_totalShares, after_shares, if_neg absent]

/-- While somebody else holds shares a holder gets his part. -/
theorem Balanced.owed_of_other (balanced : receipt.Balanced count) (user other : Address)
    (differ : other ≠ user) (holds : receipt.shares other ≠ 0) :
    receipt.owed user = receipt.part user := by
  refine if_neg ?_
  intro last
  have both := Finset.add_le_sum (f := receipt.shares) (s := Finset.univ)
    (fun _ _ => Nat.zero_le _) (Finset.mem_univ user) (Finset.mem_univ other) (Ne.symm differ)
  rw [balanced.shares] at both
  omega

/-- The only holder gets everything that is left. -/
theorem Balanced.owed_of_alone (balanced : receipt.Balanced count) (user : Address)
    (alone : ∀ other, other ≠ user → receipt.shares other = 0) :
    receipt.part user ≤ receipt.owed user ∧ receipt.owed user < receipt.part user + (count + 1) := by
  have total : ∑ other, receipt.shares other = receipt.shares user := by
    apply Finset.sum_eq_single_of_mem user (Finset.mem_univ user)
    intro other _ differ
    exact alone other differ
  have last : receipt.shares user = receipt.epoch.remainingShares := by
    rw [← balanced.shares, total]
  have owedEq : receipt.owed user = receipt.epoch.remainingAssets := if_pos last
  rw [owedEq]
  exact ⟨balanced.part_le user, balanced.remaining_lt user last⟩

/-- What one of the users who collect in turn receives. -/
theorem Fresh.payout_fair (fresh : receipt.Fresh) {before later : List Address} {user : Address}
    (turn : receipt.InTurn (before ++ user :: later)) :
    let amount := (receipt.after before).owed user
    ((∃ other, receipt.shares other ≠ 0 ∧ other ∉ before ++ [user]) →
        amount = receipt.part user) ∧
      ((∀ other, receipt.shares other ≠ 0 → other ∈ before ++ [user]) →
        receipt.part user ≤ amount ∧ amount < receipt.part user + (before.length + 1)) := by
  have balanced := fresh.balanced.after before
  rw [Nat.zero_add] at balanced
  have absent : user ∉ before := by
    have distinct := turn.once
    rw [List.nodup_append] at distinct
    intro member
    exact distinct.2.2 user member user List.mem_cons_self rfl
  dsimp only
  rw [← part_after receipt before user absent]
  constructor
  · rintro ⟨other, holds, outside⟩
    rw [List.mem_append, List.mem_singleton, not_or] at outside
    apply balanced.owed_of_other user other outside.2
    rw [after_shares, if_neg outside.1]
    exact holds
  · intro everyone
    apply balanced.owed_of_alone user
    intro other differ
    rw [after_shares]
    split
    · rfl
    · rename_i notBefore
      by_contra holds
      rcases List.mem_append.mp (everyone other holds) with member | same
      · exact notBefore member
      · exact differ (List.mem_singleton.mp same)

end Receipt

/-! ## In a run of the system -/

section Runs

variable {platform : Platform} {p : Address} {w next : World} {exitEpoch : Nat}
  {pool : SingleAssetCoverPool}

/-- What a run has made of an epoch: nothing was collected before it was settled, and
since then its holders have collected in turn from what was a fresh receipt. -/
structure EpochHistory (p : Address) (exitEpoch : Nat) (steps : List (Transition World Tx))
    (pool : SingleAssetCoverPool) : Prop where
  falls : steps.filterMap (reserveFall p exitEpoch) =
    (redemptions p exitEpoch steps).map fun claim => (claim.2 : Int)
  before : exitEpoch ∉ (exitLedger pool).settled → redemptions p exitEpoch steps = []
  since : exitEpoch ∈ (exitLedger pool).settled → ∃ receipt : Receipt, receipt.Fresh ∧
    receipt.InTurn ((redemptions p exitEpoch steps).map Prod.fst) ∧
    redemptions p exitEpoch steps =
      receipt.payouts ((redemptions p exitEpoch steps).map Prod.fst) ∧
    (exitLedger pool).receipt exitEpoch =
      receipt.after ((redemptions p exitEpoch steps).map Prod.fst) ∧
    ∀ t ∈ steps, ∀ claim, redemption p exitEpoch t = some claim →
      ∃ found, t.before.pools p = some found ∧
        found.exitRequests claim.1 = ⟨receipt.shares claim.1, exitEpoch⟩

section History

variable {steps : List (Transition World Tx)} {t : Transition World Tx}
  {after : SingleAssetCoverPool}

theorem redemptions_snoc (steps : List (Transition World Tx)) (t : Transition World Tx) :
    redemptions p exitEpoch (steps ++ [t]) =
      redemptions p exitEpoch steps ++ (redemption p exitEpoch t).toList := by
  unfold redemptions
  rw [List.filterMap_append, List.filterMap_cons, List.filterMap_nil]
  cases redemption p exitEpoch t <;> rfl

/-- The pool of a new deployment has no epochs. -/
theorem EpochHistory.empty (noFalls : steps.filterMap (reserveFall p exitEpoch) = [])
    (none : redemptions p exitEpoch steps = [])
    (noEpochs : (exitLedger pool).settled = []) : EpochHistory p exitEpoch steps pool := by
  refine ⟨by rw [noFalls, none]; rfl, fun _ => none, fun settled => ?_⟩
  rw [noEpochs] at settled
  cases settled

/-- Nobody collects between the two pools. -/
theorem EpochHistory.untouched (history : EpochHistory p exitEpoch steps pool)
    (same : Untouched exitEpoch pool after) : EpochHistory p exitEpoch steps after := by
  by_cases settled : exitEpoch ∈ (exitLedger pool).settled
  · have kept := same.kept settled
    obtain ⟨receipt, fresh, turn, paid, now, requests⟩ := history.since settled
    exact ⟨history.falls, fun absent => absurd kept.settled absent,
      fun _ => ⟨receipt, fresh, turn, paid, kept.receipt.trans now, requests⟩⟩
  · have none := history.before settled
    refine ⟨history.falls, fun _ => none, fun isSettled =>
      ⟨(exitLedger after).receipt exitEpoch, same.fresh settled isSettled, ?_⟩⟩
    rw [none]
    refine ⟨⟨List.nodup_nil, fun _ member => ?_⟩, rfl, rfl, fun t member claim collects => ?_⟩
    · cases member
    · have collected : claim ∈ redemptions p exitEpoch steps :=
        List.mem_filterMap.mpr ⟨t, member, collects⟩
      rw [none] at collected
      cases collected

/-- A step without a collection. -/
theorem EpochHistory.idle (history : EpochHistory p exitEpoch steps pool)
    (notCollected : redemption p exitEpoch t = none)
    (noFall : reserveFall p exitEpoch t = none) :
    EpochHistory p exitEpoch (steps ++ [t]) pool := by
  have list : redemptions p exitEpoch (steps ++ [t]) = redemptions p exitEpoch steps := by
    rw [redemptions_snoc, notCollected]
    exact List.append_nil _
  refine ⟨?_, fun absent => list.trans (history.before absent), fun settled => ?_⟩
  · rw [list, List.filterMap_append, history.falls, List.filterMap_cons, noFall]
    exact List.append_nil _
  · obtain ⟨receipt, fresh, turn, paid, now, requests⟩ := history.since settled
    refine ⟨receipt, fresh, ?_⟩
    rw [list]
    refine ⟨turn, paid, now, fun s member claim collects => ?_⟩
    rcases List.mem_append.mp member with earlier | last
    · exact requests s earlier claim collects
    · rw [List.mem_singleton.mp last, notCollected] at collects
      cases collects

/-- A collection by a holder of the settled epoch. -/
theorem EpochHistory.collected {user : Address} {found : SingleAssetCoverPool}
    (history : EpochHistory p exitEpoch steps pool)
    (settled : exitEpoch ∈ (exitLedger pool).settled)
    (present : t.before.pools p = some found)
    (paid : redemption p exitEpoch t =
      some (user, ((exitLedger pool).receipt exitEpoch).owed user))
    (request : found.exitRequests user =
      ⟨((exitLedger pool).receipt exitEpoch).shares user, exitEpoch⟩)
    (holds : ((exitLedger pool).receipt exitEpoch).shares user ≠ 0)
    (moved : Collected exitEpoch user pool after)
    (fall : reserveFall p exitEpoch t =
      some (((exitLedger pool).receipt exitEpoch).owed user : Int)) :
    EpochHistory p exitEpoch (steps ++ [t]) after := by
  obtain ⟨receipt, fresh, turn, paidBefore, now, requests⟩ := history.since settled
  have list : redemptions p exitEpoch (steps ++ [t]) = redemptions p exitEpoch steps ++
      [(user, ((exitLedger pool).receipt exitEpoch).owed user)] := by
    rw [redemptions_snoc, paid]
    rfl
  refine ⟨?_, fun absent => absurd moved.settled absent, fun _ => ⟨receipt, fresh, ?_⟩⟩
  · rw [list, List.filterMap_append, history.falls, List.filterMap_cons, fall,
      List.map_append]
    rfl
  · rw [list, List.map_append, List.map_singleton, Receipt.payouts_append, Receipt.after_append,
      ← paidBefore, ← now]
    rw [now] at holds
    refine ⟨turn.snoc holds, rfl, moved.receipt, fun s member claim collects => ?_⟩
    rcases List.mem_append.mp member with earlier | last
    · exact requests s earlier claim collects
    · rw [List.mem_singleton.mp last, paid] at collects
      cases collects
      refine ⟨found, by rw [List.mem_singleton.mp last]; exact present, ?_⟩
      have sharesEq : ((exitLedger pool).receipt exitEpoch).shares user = receipt.shares user := by
        rw [now, Receipt.after_shares] at *
        split
        · rename_i collectedBefore
          rw [if_pos collectedBefore] at holds
          exact absurd rfl holds
        · rfl
      rw [← sharesEq]
      exact request

end History

theorem redemption_absent {t : Transition World Tx} (absent : t.before.pools p = none) :
    redemption p exitEpoch t = none := by
  unfold redemption
  split
  · split
    · rw [absent]
      rfl
    · rfl
  · rfl

theorem reserveFall_absent {t : Transition World Tx} (absent : t.before.pools p = none) :
    reserveFall p exitEpoch t = none := by
  unfold reserveFall
  split
  · split
    · rw [absent]
      rfl
    · rfl
  · rfl

/-- The history of every epoch of a deployed pool. -/
theorem run_history {steps : List (Transition World Tx)} (run : SystemRun platform steps w) :
    (∀ pool, w.pools p = some pool → EpochHistory p exitEpoch steps pool) ∧
      (w.pools p = none → redemptions p exitEpoch steps = [] ∧
        steps.filterMap (reserveFall p exitEpoch) = []) := by
  obtain ⟨block, timelock, admin, erc20, erc1155, run⟩ := run
  induction run with
  | nil =>
      refine ⟨fun pool present => ?_, fun _ => ⟨rfl, rfl⟩⟩
      cases present
  | snoc earlier middle tx final run last ih =>
      have reachable : Reachable platform middle := ⟨earlier, _, _, _, _, _, run⟩
      cases atMiddle : middle.pools p with
      | some pool =>
          have stepped : RelatesPool (EpochStep p exitEpoch ⟨middle, tx, final⟩) p pool final :=
            step_epochStep (t := ⟨middle, tx, final⟩) reachable atMiddle last
          obtain ⟨after, presentAfter, epochStep⟩ := stepped
          have history := ih.1 pool atMiddle
          refine ⟨fun other presentOther => ?_, fun absent => ?_⟩
          · cases presentAfter.symm.trans presentOther
            cases epochStep with
            | untouched notCollected same noFall =>
                exact (history.untouched same).idle notCollected noFall
            | collected user settled first isSettled paid request holds moved fall =>
                exact (history.untouched first).collected isSettled atMiddle paid request holds
                  moved fall
          · rw [presentAfter] at absent
            cases absent
      | none =>
          have noClaim : redemption p exitEpoch ⟨middle, tx, final⟩ = none :=
            redemption_absent atMiddle
          have noFall : reserveFall p exitEpoch ⟨middle, tx, final⟩ = none :=
            reserveFall_absent atMiddle
          obtain ⟨noClaims, noFalls⟩ := ih.2 atMiddle
          have claims : redemptions p exitEpoch (earlier ++ [⟨middle, tx, final⟩]) = [] := by
            rw [redemptions_snoc, noClaims, noClaim]
            rfl
          have falls : (earlier ++ [(⟨middle, tx, final⟩ : Transition World Tx)]).filterMap
              (reserveFall p exitEpoch) = [] := by
            rw [List.filterMap_append, noFalls, List.filterMap_cons, noFall]
            rfl
          refine ⟨fun pool present => ?_, fun _ => ⟨claims, falls⟩⟩
          rcases step_absent atMiddle last with absent | ⟨asset, deployed⟩
          · rw [absent] at present
            cases present
          · have initial := deployed.symm.trans present
            cases initial
            exact .empty falls claims rfl

/-! ## The claims of a settled epoch -/

/-- A compiler revert, where an overflow counts only while the assets fit the word. -/
def PaymentPanic (fits : Prop) (error : ContractError) : Prop :=
  ∃ reason, error = .panic reason ∧ (reason = .overflow → fits)

/-- The compiler's own reverts. -/
def IsPanic (error : ContractError) : Prop := ∃ reason, error = .panic reason

theorem erc20Transfer_noPanic (ledger : Erc20) (token sender recipient : Address) (amount : Nat) :
    Avoids IsPanic (erc20Transfer ledger token sender recipient amount) := by
  refine avoids_revertIf_bind _ _ _ (fun _ => ?_) fun _ => ?_
  · rintro ⟨reason, same⟩
    cases same
  refine avoids_revertIf_bind _ _ _ (fun _ => ?_) fun _ => ?_
  · rintro ⟨reason, same⟩
    cases same
  refine avoids_revertIf_bind _ _ _ (fun _ => ?_) fun _ => avoids_pure _
  rintro ⟨reason, same⟩
  cases same

/-- A holder of a settled epoch is paid without arithmetic trouble. -/
theorem payRequest_avoids (env : PoolEnv) (tx : PoolTx) (receiver : Address) {count : Nat}
    (balanced : ((exitLedger tx.pool).receipt
      (tx.pool.exitRequests env.sender).exitEpoch).Balanced count)
    (covered : (tx.pool.exitEpochs (tx.pool.exitRequests env.sender).exitEpoch).remainingAssets ≤
      tx.pool.withdrawalReserve) :
    Avoids (PaymentPanic ((tx.pool.exitEpochs
        (tx.pool.exitRequests env.sender).exitEpoch).remainingAssets < uintBound 256))
      (PoolTx.payRequest env tx receiver (tx.pool.exitRequests env.sender)) := by
  have held : ((exitLedger tx.pool).receipt
      (tx.pool.exitRequests env.sender).exitEpoch).shares env.sender =
        (tx.pool.exitRequests env.sender).shares := if_pos rfl
  have sharesLe := balanced.shares_le env.sender
  have partLe := balanced.part_le env.sender
  rw [held] at sharesLe
  unfold Receipt.part at partLe
  rw [held] at partLe
  have enough : ∀ assets, PoolTx.redeemAssets
      (tx.pool.exitEpochs (tx.pool.exitRequests env.sender).exitEpoch)
      (tx.pool.exitRequests env.sender).shares = .ok assets →
      assets ≤ (tx.pool.exitEpochs (tx.pool.exitRequests env.sender).exitEpoch).remainingAssets := by
    intro assets run
    rcases (ite_ok_iff _ _ _ _).mp run with ⟨-, result⟩ | ⟨-, result⟩
    · exact ((pure_ok_iff _ _).mp result).ge
    · rw [((mulDiv_ok_iff _ _ _ _).mp result).2.2]
      exact partLe
  unfold PoolTx.payRequest
  apply avoids_bind
  · apply avoids_ite
    · intro _
      exact avoids_pure _
    · intro notLast error failed
      unfold mulDiv at failed
      split at failed
      next none => exact absurd none balanced.positive.ne'
      split at failed
      next => cases failed
      next large =>
        cases failed
        rintro ⟨reason, same, fits⟩
        cases same
        exact large (partLe.trans_lt (fits rfl))
  intro assets owed
  have within := enough assets owed
  have noUnderflow : ∀ {a b : Nat}, b ≤ a → Avoids (PaymentPanic ((tx.pool.exitEpochs
      (tx.pool.exitRequests env.sender).exitEpoch).remainingAssets < uintBound 256))
        (checkedSub a b : Call Nat) :=
    fun ordered => avoids_checkedSub _ _ fun below => absurd below (Nat.not_lt.mpr ordered)
  refine avoids_bind _ _ (noUnderflow sharesLe) fun _ _ => ?_
  refine avoids_bind _ _ (noUnderflow within) fun _ _ => ?_
  refine avoids_bind _ _ (noUnderflow (within.trans covered)) fun _ _ => ?_
  refine avoids_bind _ _ ?_ fun _ _ => avoids_pure _
  intro error failed
  rintro ⟨reason, same, -⟩
  exact erc20Transfer_noPanic _ _ _ _ _ error failed ⟨reason, same⟩

/-- No subtraction underflows for whoever collects from a settled epoch. -/
theorem completeRedeem_noUnderflow (user receiver : Address) {count : Nat}
    (present : w.pools p = some pool) (inOrder : PoolInOrder p w pool)
    (settled : (pool.exitRequests user).exitEpoch ∈ (exitLedger pool).settled)
    (balanced : ((exitLedger pool).receipt (pool.exitRequests user).exitEpoch).Balanced count) :
    Avoids (· = .panic .underflow) (w.callPool p user (.completeRedeem receiver)) := by
  refine avoids_bind _ _ ?_ fun found foundRun => ?_
  · apply avoids_orRevert
    intro absent
    rw [present] at absent
    cases absent
  cases present.symm.trans ((getPool_ok_iff found).mp foundRun)
  refine avoids_bind _ _ ?_ fun _ _ => avoids_pure _
  refine avoids_revertIf_bind _ _ _ (fun _ impossible => by cases impossible) fun _ => ?_
  refine avoids_revertIf_bind _ _ _ (fun _ impossible => by cases impossible) fun _ => ?_
  refine avoids_revertIf_bind _ _ _ (fun _ impossible => by cases impossible) fun _ => ?_
  refine avoids_revertIf_bind _ _ _ (fun _ impossible => by cases impossible) fun holds => ?_
  have held : ((exitLedger pool).receipt (pool.exitRequests user).exitEpoch).shares user =
      (pool.exitRequests user).shares := if_pos rfl
  have notDrained :
      (pool.exitEpochs (pool.exitRequests user).exitEpoch).remainingShares ≠ 0 := by
    have inside := balanced.shares_le user
    rw [held] at inside
    intro none
    exact holds (Nat.le_zero.mp (none ▸ inside))
  refine avoids_bind _ _ (avoids_ite _ _ _ (fun none => absurd none notDrained)
    fun _ => avoids_pure _) fun tx run => ?_
  rcases (ite_ok_iff _ _ _ _).mp run with ⟨none, -⟩ | ⟨-, same⟩
  · exact absurd none notDrained
  · cases (pure_ok_iff _ _).mp same
    intro error failed
    rintro rfl
    refine payRequest_avoids (w.poolEnv p user) ⟨pool, w.erc20, []⟩ receiver balanced ?_
      _ failed ⟨.underflow, rfl, fun impossible => by cases impossible⟩
    exact inOrder.accounts.book.remaining_le_reserve _ settled

/-- In every run and every order of claims: nobody's claim underflows, everyone but the
last requester of a settled epoch receives the floor of the pro-rata part, the last one at
most one unit for each claimant more, together they receive exactly what the epoch was
settled for, and each claim lowers the reserve by what it pays. -/
theorem epoch_claims_conserve {steps : List (Transition World Tx)}
    (run : SystemRun platform steps w) (present : w.pools p = some pool)
    (settled : exitEpoch ∈ pool.exitEpochQueue.take pool.nextExitEpochIndex) :
    let epoch := pool.exitEpochs exitEpoch
    let claims := redemptions p exitEpoch steps
    let claimants := claims.map Prod.fst
    ∃ requested : Address → Nat,
      ∑ user, requested user = epoch.totalShares ∧
      (∀ t ∈ steps, ∀ claim, redemption p exitEpoch t = some claim →
        ∃ found, t.before.pools p = some found ∧
          found.exitRequests claim.1 = ⟨requested claim.1, exitEpoch⟩) ∧
      (∀ user, user ∉ claimants → requested user ≠ 0 →
        pool.exitRequests user = ⟨requested user, exitEpoch⟩) ∧
      (claimants.Nodup ∧ ∀ user ∈ claimants, requested user ≠ 0) ∧
      (∀ earlier user amount later, claims = earlier ++ (user, amount) :: later →
        let floor := epoch.totalAssets * requested user / epoch.totalShares
        let served := earlier.map Prod.fst ++ [user]
        ((∃ other, requested other ≠ 0 ∧ other ∉ served) → amount = floor) ∧
          ((∀ other, requested other ≠ 0 → other ∈ served) →
            floor ≤ amount ∧ amount < floor + claims.length)) ∧
      (claims.map Prod.snd).sum + epoch.remainingAssets = epoch.totalAssets ∧
      ((∀ user, requested user ≠ 0 → user ∈ claimants) →
        (claims.map Prod.snd).sum = epoch.totalAssets) ∧
      steps.filterMap (reserveFall p exitEpoch) = claims.map (fun claim => (claim.2 : Int)) ∧
      ∀ user receiver, (pool.exitRequests user).exitEpoch = exitEpoch →
        Avoids (· = .panic .underflow) (w.callPool p user (.completeRedeem receiver)) := by
  have history : EpochHistory p exitEpoch steps pool := (run_history run).1 pool present
  obtain ⟨receipt, fresh, turn, paid, now, requests⟩ := history.since settled
  have balanced := fresh.balanced.after ((redemptions p exitEpoch steps).map Prod.fst)
  have conserved := fresh.balanced.payouts_sum ((redemptions p exitEpoch steps).map Prod.fst)
  rw [← paid, fresh.assets] at conserved
  have sharesEq : (pool.exitEpochs exitEpoch).totalShares = receipt.epoch.totalShares :=
    (congrArg (fun later => later.epoch.totalShares) now).trans (Receipt.after_totalShares _ _)
  have assetsEq : (pool.exitEpochs exitEpoch).totalAssets = receipt.epoch.totalAssets :=
    (congrArg (fun later => later.epoch.totalAssets) now).trans (Receipt.after_totalAssets _ _)
  have leftEq : (pool.exitEpochs exitEpoch).remainingAssets = (receipt.after
      ((redemptions p exitEpoch steps).map Prod.fst)).epoch.remainingAssets :=
    congrArg (fun later => later.epoch.remainingAssets) now
  dsimp only
  rw [sharesEq, assetsEq, leftEq]
  refine ⟨receipt.shares, fresh.whole, requests, ?_, ⟨turn.once, turn.holders⟩, ?_, conserved,
    ?_, history.falls, ?_⟩
  · -- whoever has not collected still holds the request
    intro user outside holds
    have held : (if (pool.exitRequests user).exitEpoch = exitEpoch then
        (pool.exitRequests user).shares else 0) = receipt.shares user := by
      rw [← Receipt.after_shares_outside receipt outside, ← now]
      rfl
    split at held
    next here =>
      rw [← held, ← here]
    next => exact absurd held.symm holds
  · intro earlier user amount later split
    have users : (redemptions p exitEpoch steps).map Prod.fst =
        earlier.map Prod.fst ++ user :: later.map Prod.fst := by
      rw [split, List.map_append, List.map_cons]
    have amounts := paid
    rw [users, Receipt.payouts_split, split] at amounts
    have sameLength : earlier.length = (receipt.payouts (earlier.map Prod.fst)).length := by
      have sameUsers := congrArg List.length
        (Receipt.payouts_users receipt (earlier.map Prod.fst))
      rw [List.length_map, List.length_map] at sameUsers
      exact sameUsers.symm
    have amountEq : amount = (receipt.after (earlier.map Prod.fst)).owed user := by
      have tails := (List.append_inj amounts sameLength).2
      exact (Prod.mk.inj (List.cons.inj tails).1).2
    rw [users] at turn
    obtain ⟨others, last⟩ := fresh.payout_fair turn
    rw [amountEq]
    refine ⟨others, fun everyone => ?_⟩
    obtain ⟨least, most⟩ := last everyone
    refine ⟨least, most.trans_le (Nat.add_le_add_left ?_ _)⟩
    rw [split, List.length_append, List.length_cons, List.length_map]
    omega
  · intro everyone
    have noShares : (receipt.after
        ((redemptions p exitEpoch steps).map Prod.fst)).epoch.remainingShares = 0 := by
      rw [← balanced.shares]
      apply Finset.sum_eq_zero
      intro user _
      rw [Receipt.after_shares]
      by_cases collected : user ∈ (redemptions p exitEpoch steps).map Prod.fst
      · rw [if_pos collected]
      · rw [if_neg collected]
        by_contra holds
        exact collected (everyone user holds)
    have noAssets := balanced.drained noShares
    omega
  · rintro user receiver here
    rw [← now, ← here] at balanced
    rw [← here] at settled
    exact completeRedeem_noUnderflow user receiver present
      (reachable_poolInOrder run.reachable present) settled balanced

/-- In the small deployment the only requester of the first epoch receives all of it. -/
theorem smallDeployment_epoch_conserved :
    ∃ steps w pool, SystemRun SmallDeployment.platform steps w ∧
      w.pools SmallDeployment.pool = some pool ∧
      redemptions SmallDeployment.pool 1814400 steps = [(SmallDeployment.alice, 100)] ∧
      ((redemptions SmallDeployment.pool 1814400 steps).map Prod.snd).sum +
        (pool.exitEpochs 1814400).remainingAssets = (pool.exitEpochs 1814400).totalAssets := by
  have passed : endsIn (step SmallDeployment.platform) SmallDeployment.start
      (SmallDeployment.stake ++ SmallDeployment.exit)
      (fun steps w => redemptions SmallDeployment.pool 1814400 steps ==
          [(SmallDeployment.alice, 100)] &&
        (w.pools SmallDeployment.pool).any fun pool =>
          pool.exitEpochQueue.take pool.nextExitEpochIndex == [1814400]) = true := by
    decide +kernel
  obtain ⟨steps, w, run, checked⟩ := endsIn_isRun _ _ passed
  simp only [Bool.and_eq_true, beq_iff_eq] at checked
  obtain ⟨claims, checked⟩ := checked
  obtain ⟨pool, present, settled⟩ := (Option.any_eq_true _ _).mp checked
  rw [beq_iff_eq] at settled
  have systemRun : SystemRun SmallDeployment.platform steps w := ⟨_, _, _, _, _, run⟩
  have isSettled : 1814400 ∈ pool.exitEpochQueue.take pool.nextExitEpochIndex := by
    rw [settled]
    exact List.mem_singleton_self _
  obtain ⟨-, -, -, -, -, -, conserved, -⟩ := epoch_claims_conserve systemRun present isSettled
  exact ⟨steps, w, pool, systemRun, present, claims, conserved⟩

end Runs

end Usd8Core.Pool
