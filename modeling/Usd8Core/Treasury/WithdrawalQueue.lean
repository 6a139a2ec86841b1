import Usd8Core.Treasury.TreasuryRuns

/-!
# The withdrawal queue

A redemption takes what is missing from the strategies in their order, passes by those
that revert, and stops as soon as enough is idle.
-/

set_option autoImplicit false

namespace Usd8Core.Treasury

open Usd8Core.Lib.ByteWords
open Usd8Core.Lib.CheckedCall
open Usd8Core.Lib.FiniteLedger
open Usd8Core.Chain

variable {σ : Type}

/-- The strategies of `fails` revert on every withdrawal, the others pay what they are asked
for up to what they report. -/
structure QueueAnswers (contracts : ExternalContracts σ) (treasury : Address)
    (strategies : List Address) (fails : Address → Bool) : Prop where
  reverts : ∀ strategy ∈ strategies, fails strategy = true → ∀ external amount,
    contracts.withdraw external strategy amount = none
  pays : ∀ strategy ∈ strategies, fails strategy = false → ∀ external assets amount,
    contracts.totalAssets external strategy = some assets → amount ≤ assets →
    ∃ after, contracts.withdraw external strategy amount = some after ∧
      contracts.usdcBalance after treasury = contracts.usdcBalance external treasury + amount ∧
      contracts.totalAssets after strategy = some (assets - amount) ∧
      ∀ other ∈ strategies, other ≠ strategy →
        contracts.totalAssets after other = contracts.totalAssets external other

/-- What the strategies report. -/
def Reports (contracts : ExternalContracts σ) (strategies : List Address) (external : σ)
    (value : Address → Nat) : Prop :=
  ∀ strategy ∈ strategies, contracts.totalAssets external strategy = some (value strategy)

/-- What the strategies that pay hold together. -/
def available (fails : Address → Bool) (value : Address → Nat) (strategies : List Address) : Nat :=
  ((strategies.filter fun strategy => !fails strategy).map value).sum

section Calls

variable (contracts : ExternalContracts σ) (self : Address)

/-- `try s.withdraw(toPull) {} catch {}` -/
def attempt (external : σ) (call : Address × Nat) : σ :=
  (contracts.withdraw external call.1 call.2).getD external

/-- The calls of `withdraw` that `_ensureIdleUsdc` makes, in their order. -/
def withdrawCalls (amount : Nat) : List Address → σ → List (Address × Nat)
  | [], _ => []
  | strategy :: later, external =>
      let idle := contracts.usdcBalance external self
      if idle ≥ amount then []
      else
        match contracts.totalAssets external strategy with
        | none => []
        | some available =>
            if available = 0 then withdrawCalls amount later external
            else
              let call := (strategy, min (amount - idle) available)
              call :: withdrawCalls amount later (attempt contracts external call)

end Calls

section Behaviour

variable {contracts : ExternalContracts σ} {self : Address}

/-! ## One strategy -/

section Visit

variable {strategies : List Address} {fails : Address → Bool} {external : σ} {amount : Nat}

/-- What a strategy gives when `amount - idle` is missing. -/
def taken (fails : Address → Bool) (missing : Nat) (strategy : Address) (assets : Nat) : Nat :=
  if fails strategy then 0 else min missing assets

/-- The strategy gave `amount`, the others are as before. -/
structure Visited (contracts : ExternalContracts σ) (treasury : Address)
    (strategies : List Address) (strategy : Address) (external next : σ) (assets amount : Nat) :
    Prop where
  balance : contracts.usdcBalance next treasury = contracts.usdcBalance external treasury + amount
  report : contracts.totalAssets next strategy = some (assets - amount)
  others : ∀ other ∈ strategies, other ≠ strategy →
    contracts.totalAssets next other = contracts.totalAssets external other

theorem attempt_visited (answers : QueueAnswers contracts self strategies fails)
    {strategy : Address} (member : strategy ∈ strategies) {assets : Nat}
    (reported : contracts.totalAssets external strategy = some assets) (missing : Nat) :
    Visited contracts self strategies strategy external
      (attempt contracts external (strategy, min missing assets)) assets
      (taken fails missing strategy assets) := by
  unfold attempt taken
  cases failing : fails strategy with
  | true =>
      rw [answers.reverts strategy member failing external _]
      exact ⟨rfl, reported, fun _ _ _ => rfl⟩
  | false =>
      obtain ⟨after, ran, balance, report, others⟩ := answers.pays strategy member failing external
        assets (min missing assets) reported (Nat.min_le_right _ _)
      rw [ran]
      exact ⟨balance, report, others⟩

theorem skipped_visited {strategy : Address}
    (reported : contracts.totalAssets external strategy = some 0) (missing : Nat) :
    Visited contracts self strategies strategy external external 0
      (taken fails missing strategy 0) := by
  have nothing : taken fails missing strategy 0 = 0 := by simp [taken]
  rw [nothing]
  exact ⟨rfl, reported, fun _ _ _ => rfl⟩

/-- One round of the loop while too little is idle. -/
theorem ensureIdleUsdc_cons (answers : QueueAnswers contracts self strategies fails)
    {strategy : Address} (member : strategy ∈ strategies) {assets : Nat}
    (reported : contracts.totalAssets external strategy = some assets)
    (short : contracts.usdcBalance external self < amount) (later : List Address) :
    ∃ next made, Visited contracts self strategies strategy external next assets
        (taken fails (amount - contracts.usdcBalance external self) strategy assets) ∧
      next = made.foldl (attempt contracts) external ∧ (∀ call ∈ made, call.1 = strategy) ∧
      made.length ≤ 1 ∧
      withdrawCalls contracts self amount (strategy :: later) external =
        made ++ withdrawCalls contracts self amount later next ∧
      TreasuryState.ensureIdleUsdc contracts self amount (strategy :: later) external =
        TreasuryState.ensureIdleUsdc contracts self amount later next := by
  have subtracted : (checkedSub amount (contracts.usdcBalance external self) : TreasuryCall Nat) =
      .ok (amount - contracts.usdcBalance external self) :=
    (checkedSub_ok_iff _ _ _).mpr ⟨short.le, rfl⟩
  have read : orRevert (contracts.totalAssets external strategy) (.external strategy) =
      (.ok assets : TreasuryCall Nat) := (orRevert_ok_iff _ _ _).mpr reported
  have enough : ¬ contracts.usdcBalance external self ≥ amount := Nat.not_le.mpr short
  by_cases empty : assets = 0
  · subst empty
    refine ⟨external, [], skipped_visited reported _, rfl, by simp, by simp, ?_, ?_⟩
    · simp [withdrawCalls, enough, reported]
    · rw [TreasuryState.ensureIdleUsdc, if_neg enough, bind_after subtracted, bind_after read,
        if_pos rfl]
  · refine ⟨_, [(strategy, min (amount - contracts.usdcBalance external self) assets)],
      attempt_visited answers member reported _, rfl, by simp, by simp, ?_, ?_⟩
    · simp [withdrawCalls, enough, reported, empty]
    · have toPull : (if amount - contracts.usdcBalance external self < assets then
          amount - contracts.usdcBalance external self else assets) =
            min (amount - contracts.usdcBalance external self) assets := by
        split <;> omega
      rw [TreasuryState.ensureIdleUsdc, if_neg enough, bind_after subtracted, bind_after read,
        if_neg empty, toPull, attempt]
      dsimp only
      cases pulled : contracts.withdraw external strategy
        (min (amount - contracts.usdcBalance external self) assets) <;> rfl

end Visit

/-! ## The whole queue -/

section Queue

variable {strategies : List Address} {fails : Address → Bool} {amount : Nat}

@[simp] theorem available_nil (value : Address → Nat) : available fails value [] = 0 := rfl

@[simp] theorem available_cons (value : Address → Nat) (strategy : Address)
    (later : List Address) :
    available fails value (strategy :: later) =
      (if fails strategy then 0 else value strategy) + available fails value later := by
  cases failing : fails strategy <;> simp [available, failing]

theorem Reports.after_visit {later : List Address} {strategy : Address} {external next : σ}
    {assets given : Nat} {value : Address → Nat} (reports : Reports contracts later external value)
    (visited : Visited contracts self strategies strategy external next assets given)
    (queued : later ⊆ strategies) (absent : strategy ∉ later) :
    Reports contracts later next value := by
  intro other member
  have differ : other ≠ strategy := by
    rintro rfl
    exact absent member
  rw [visited.others other (queued member) differ]
  exact reports other member

/-- What a walk over the queue leaves behind. -/
structure Walked (contracts : ExternalContracts σ) (treasury : Address)
    (strategies queue : List Address) (external after : σ) (value : Address → Nat)
    (pulled : Nat) : Prop where
  balance : contracts.usdcBalance after treasury = contracts.usdcBalance external treasury + pulled
  reports : ∃ left, Reports contracts queue after left ∧
    (queue.map left).sum + pulled = (queue.map value).sum
  others : ∀ other ∈ strategies, other ∉ queue →
    contracts.totalAssets after other = contracts.totalAssets external other

theorem Walked.cons {queue : List Address} {strategy : Address} {external next after : σ}
    {value : Address → Nat} {first rest : Nat} (member : strategy ∈ strategies)
    (absent : strategy ∉ queue) (within : first ≤ value strategy)
    (visited : Visited contracts self strategies strategy external next (value strategy) first)
    (walked : Walked contracts self strategies queue next after value rest) :
    Walked contracts self strategies (strategy :: queue) external after value (first + rest) := by
  obtain ⟨left, reports, total⟩ := walked.reports
  refine ⟨?_, ⟨Function.update left strategy (value strategy - first), ?_, ?_⟩, ?_⟩
  · rw [walked.balance, visited.balance, Nat.add_assoc]
  · intro other listed
    by_cases same : other = strategy
    · subst same
      rw [Function.update_self, walked.others other member absent]
      exact visited.report
    · rw [Function.update_of_ne same]
      exact reports other ((List.mem_cons.mp listed).resolve_left same)
  · have kept : queue.map (Function.update left strategy (value strategy - first)) =
        queue.map left := by
      apply List.map_congr_left
      intro other listed
      apply Function.update_of_ne
      rintro rfl
      exact absent listed
    rw [List.map_cons, List.sum_cons, List.map_cons, List.sum_cons, Function.update_self, kept]
    omega
  · intro other listed outside
    rw [List.mem_cons, not_or] at outside
    rw [walked.others other listed outside.2, visited.others other listed outside.1]

variable (amount) in
/-- The walk pulls what is missing or all there is, and ends well in the first case. -/
theorem ensureIdleUsdc_walk (answers : QueueAnswers contracts self strategies fails)
    {queue : List Address} (distinct : queue.Nodup) (queued : queue ⊆ strategies) {external : σ}
    {value : Address → Nat} (reports : Reports contracts queue external value) :
    let idle := contracts.usdcBalance external self
    let after := (withdrawCalls contracts self amount queue external).foldl (attempt contracts)
      external
    Walked contracts self strategies queue external after value
        (min (amount - idle) (available fails value queue)) ∧
      TreasuryState.ensureIdleUsdc contracts self amount queue external =
        if amount ≤ idle + available fails value queue then .ok after
        else .error (.insufficientLiquidity amount (idle + available fails value queue)) := by
  induction queue generalizing external with
  | nil =>
      refine ⟨⟨by simp [withdrawCalls], ⟨value, reports, by simp⟩, fun _ _ _ => rfl⟩, ?_⟩
      rw [TreasuryState.ensureIdleUsdc]
      by_cases enough : amount ≤ contracts.usdcBalance external self
      · have passed : revertIf (contracts.usdcBalance external self < amount)
            (TreasuryError.insufficientLiquidity amount (contracts.usdcBalance external self)) =
              .ok () := (revertIf_ok_iff _ _ _).mpr (Nat.not_lt.mpr enough)
        exact (bind_after passed _).trans (if_pos (by simpa using enough)).symm
      · rw [revertIf, if_pos (Nat.lt_of_not_le enough), if_neg (by simpa using enough)]
        rfl
  | cons strategy later ih =>
      rw [List.nodup_cons] at distinct
      have member : strategy ∈ strategies := queued (List.mem_cons_self ..)
      have laterQueued : later ⊆ strategies := fun other listed =>
        queued (List.mem_cons_of_mem _ listed)
      dsimp only
      rcases Nat.lt_or_ge (contracts.usdcBalance external self) amount with short | enough
      · obtain ⟨next, made, visited, nextEq, -, -, calls, run⟩ :=
          ensureIdleUsdc_cons answers member (reports strategy (List.mem_cons_self ..)) short later
        have laterReports : Reports contracts later external value := fun other listed =>
          reports other (List.mem_cons_of_mem _ listed)
        obtain ⟨walked, rest⟩ := ih distinct.2 laterQueued
          (laterReports.after_visit visited laterQueued distinct.1)
        rw [calls, List.foldl_append, ← nextEq, run, rest]
        have within : taken fails (amount - contracts.usdcBalance external self) strategy
            (value strategy) ≤ value strategy := by
          unfold taken
          split <;> omega
        have whole := Walked.cons member distinct.1 within visited walked
        have balance := visited.balance
        have given : taken fails (amount - contracts.usdcBalance external self) strategy
            (value strategy) = min (amount - contracts.usdcBalance external self)
              (if fails strategy then 0 else value strategy) := by
          unfold taken
          split <;> simp
        rw [given] at whole balance
        rw [available_cons]
        generalize (if fails strategy then 0 else value strategy) = own at *
        generalize available fails value later = others at *
        generalize contracts.usdcBalance external self = idle at *
        rw [balance] at whole ⊢
        constructor
        · have pulled : min (amount - idle) own + min (amount - (idle + min (amount - idle) own))
              others = min (amount - idle) (own + others) := by omega
          rwa [pulled] at whole
        · by_cases enough : amount ≤ idle + (own + others)
          · rw [if_pos enough, if_pos (by omega)]
          · have all : idle + min (amount - idle) own + others = idle + (own + others) := by omega
            rw [all]
      · have none : withdrawCalls contracts self amount (strategy :: later) external = [] := by
          simp [withdrawCalls, enough]
        have stop : TreasuryState.ensureIdleUsdc contracts self amount (strategy :: later)
            external = .ok external := by
          rw [TreasuryState.ensureIdleUsdc, if_pos enough]
          rfl
        rw [none, stop]
        have nothing : min (amount - contracts.usdcBalance external self)
            (available fails value (strategy :: later)) = 0 := by omega
        rw [nothing, if_pos (by omega)]
        exact ⟨⟨rfl, ⟨value, reports, rfl⟩, fun _ _ _ => rfl⟩, rfl⟩

/-- Of the strategies that pay nothing is left to pay. -/
def Emptied (contracts : ExternalContracts σ) (fails : Address → Bool) (strategies : List Address)
    (external : σ) : Prop :=
  ∀ strategy ∈ strategies, fails strategy = false →
    contracts.totalAssets external strategy = some 0

theorem Emptied.after_visit {done : List Address} {strategy : Address} {external next : σ}
    {assets given : Nat} (emptied : Emptied contracts fails done external)
    (visited : Visited contracts self strategies strategy external next assets given)
    (listed : done ⊆ strategies) (absent : strategy ∉ done) :
    Emptied contracts fails done next := by
  intro other member paying
  have differ : other ≠ strategy := by
    rintro rfl
    exact absent member
  rw [visited.others other (listed member) differ]
  exact emptied other member paying

/-- A strategy is called only when all before it that pay are empty. -/
theorem withdrawCalls_order (answers : QueueAnswers contracts self strategies fails)
    (done : List Address) {queue : List Address} (distinct : (done ++ queue).Nodup)
    (listed : done ++ queue ⊆ strategies) {external : σ} {value : Address → Nat}
    (reports : Reports contracts queue external value)
    (emptied : contracts.usdcBalance external self < amount →
      Emptied contracts fails done external)
    {earlier rest : List (Address × Nat)} {strategy : Address} {asked : Nat}
    (calls : withdrawCalls contracts self amount queue external =
      earlier ++ (strategy, asked) :: rest) :
    ∃ front back, queue = front ++ strategy :: back ∧
      Emptied contracts fails (done ++ front) (earlier.foldl (attempt contracts) external) := by
  induction queue generalizing done external earlier with
  | nil => simp [withdrawCalls] at calls
  | cons first later ih =>
      rcases Nat.lt_or_ge (contracts.usdcBalance external self) amount with short | enough
      swap
      · simp [withdrawCalls, enough] at calls
      have member : first ∈ strategies := listed (by simp)
      have report := reports first (List.mem_cons_self ..)
      obtain ⟨next, made, visited, nextEq, ownCalls, one, split, -⟩ :=
        ensureIdleUsdc_cons answers member report short later
      have shifted : done ++ first :: later = (done ++ [first]) ++ later := by simp
      rw [shifted] at distinct listed
      have apart := List.nodup_append'.mp distinct
      have fresh := List.nodup_append'.mp apart.1
      have unlisted : first ∉ done := fun inDone => fresh.2.2 inDone (by simp)
      have notLater : first ∉ later := fun inLater => apart.2.2 (by simp) inLater
      have doneListed : done ⊆ strategies := fun other inDone => listed (by simp [inDone])
      have laterListed : later ⊆ strategies := fun other inLater => listed (by simp [inLater])
      rw [split] at calls
      have later_emptied : contracts.usdcBalance next self < amount →
          Emptied contracts fails (done ++ [first]) next := by
        intro stillShort other listedOther paying
        rcases List.mem_append.mp listedOther with inDone | isFirst
        · exact (emptied short).after_visit visited doneListed unlisted other inDone paying
        · rw [List.mem_singleton] at isFirst
          subst isFirst
          have given := visited.balance
          have left := visited.report
          simp only [taken, paying, Bool.false_eq_true, if_false] at given left
          rw [left, Option.some.injEq]
          omega
      have laterReports : Reports contracts later next value :=
        Reports.after_visit (fun other inLater => reports other (List.mem_cons_of_mem _ inLater))
          visited laterListed notLater
      cases made with
      | nil =>
          obtain ⟨front, back, queueEq, order⟩ :=
            ih _ distinct listed laterReports later_emptied calls
          refine ⟨first :: front, back, by rw [queueEq, List.cons_append], ?_⟩
          have stay : next = external := nextEq
          rw [stay, List.append_assoc] at order
          exact order
      | cons call others =>
          have alone : others = [] := by simpa using one
          subst alone
          cases earlier with
          | nil =>
              have same := (List.cons.inj calls).1
              have isFirst := ownCalls call (List.mem_cons_self ..)
              rw [same] at isFirst
              refine ⟨[], later, by rw [← isFirst]; rfl, ?_⟩
              rw [List.append_nil]
              exact emptied short
          | cons before earlier =>
              have same := List.cons.inj calls
              obtain ⟨front, back, queueEq, order⟩ :=
                ih _ distinct listed laterReports later_emptied same.2
              refine ⟨first :: front, back, by rw [queueEq, List.cons_append], ?_⟩
              rw [List.foldl_cons, ← same.1]
              rw [nextEq, List.append_assoc] at order
              exact order

end Queue

/-! ## The reserve -/

/-- A reserve is the idle USDC and the reports, or too large for a word. -/
theorem reserveLoop_eq {external : σ} {strategies : List Address} {value : Address → Nat}
    (reports : Reports contracts strategies external value) (total : Nat)
    (nonempty : strategies ≠ [] ∨ total < uintBound 256) :
    TreasuryState.reserveLoop contracts external strategies total =
      if total + (strategies.map value).sum < uintBound 256 then
        .ok (total + (strategies.map value).sum)
      else .error (.panic .overflow) := by
  induction strategies generalizing total with
  | nil => simp [TreasuryState.reserveLoop, nonempty.resolve_left, pure, Except.pure]
  | cons strategy later ih =>
      have read : orRevert (contracts.totalAssets external strategy) (.external strategy) =
          (.ok (value strategy) : TreasuryCall Nat) :=
        (orRevert_ok_iff _ _ _).mpr (reports strategy (List.mem_cons_self ..))
      have laterReports : Reports contracts later external value := fun other listed =>
        reports other (List.mem_cons_of_mem _ listed)
      rw [TreasuryState.reserveLoop, bind_after read, List.map_cons, List.sum_cons]
      by_cases fits : total + value strategy < uintBound 256
      · have added : (checkedAdd 256 total (value strategy) : TreasuryCall Nat) =
            .ok (total + value strategy) := (checkedAdd_ok_iff _ _ _ _).mpr ⟨fits, rfl⟩
        rw [bind_after added, ih laterReports _ (.inr fits), Nat.add_assoc]
      · rw [checkedAdd, if_neg fits, if_neg (by omega)]
        rfl

/-- Value that moved from the reports to the idle USDC. -/
theorem getReserveBalance_moved {t : TreasuryState σ} {after : σ} {value left : Address → Nat}
    {pulled : Nat} (reports : Reports contracts t.strategies t.external value)
    (reportsAfter : Reports contracts t.strategies after left)
    (balance : contracts.usdcBalance after self =
      contracts.usdcBalance t.external self + pulled)
    (total : (t.strategies.map left).sum + pulled = (t.strategies.map value).sum) :
    TreasuryState.getReserveBalance contracts self { t with external := after } =
      t.getReserveBalance contracts self := by
  unfold TreasuryState.getReserveBalance
  dsimp only
  by_cases empty : t.strategies = []
  · rw [empty] at total ⊢
    have nothing : pulled = 0 := by simpa using total
    rw [TreasuryState.reserveLoop, TreasuryState.reserveLoop, balance, nothing, Nat.add_zero]
  · rw [reserveLoop_eq reportsAfter _ (.inl empty), reserveLoop_eq reports _ (.inl empty), balance]
    have same : contracts.usdcBalance t.external self + pulled + (t.strategies.map left).sum =
        contracts.usdcBalance t.external self + (t.strategies.map value).sum := by omega
    rw [same]

/-- The queue pays an amount when the idle USDC and the strategies that pay hold it, pulls
what is missing and no more, goes in order, and leaves the reserve as it was. -/
theorem ensureIdleUsdc_queue (t : TreasuryState σ) {fails : Address → Bool}
    (answers : QueueAnswers contracts self t.strategies fails) {value : Address → Nat}
    (reports : Reports contracts t.strategies t.external value) (amount : Nat) :
    ((∃ after, TreasuryState.ensureIdleUsdc contracts self amount t.strategies t.external =
        .ok after) ↔
      amount ≤ contracts.usdcBalance t.external self + available fails value t.strategies) ∧
    ∀ after, TreasuryState.ensureIdleUsdc contracts self amount t.strategies t.external =
        .ok after →
      contracts.usdcBalance after self = contracts.usdcBalance t.external self +
        (amount - contracts.usdcBalance t.external self) ∧
      TreasuryState.getReserveBalance contracts self { t with external := after } =
        t.getReserveBalance contracts self ∧
      after = (withdrawCalls contracts self amount t.strategies t.external).foldl
        (attempt contracts) t.external ∧
      ∀ earlier rest strategy asked,
        withdrawCalls contracts self amount t.strategies t.external =
          earlier ++ (strategy, asked) :: rest →
        ∃ front back, t.strategies = front ++ strategy :: back ∧
          Emptied contracts fails front (earlier.foldl (attempt contracts) t.external) := by
  obtain ⟨walked, run⟩ :=
    ensureIdleUsdc_walk amount answers t.distinct (List.Subset.refl _) reports
  rw [run]
  constructor
  · constructor
    · rintro ⟨after, ran⟩
      by_contra short
      rw [if_neg short] at ran
      cases ran
    · intro enough
      exact ⟨_, if_pos enough⟩
  · intro after ran
    rcases (ite_ok_iff _ _ _ _).mp ran with ⟨enough, result⟩ | ⟨-, failed⟩
    swap
    · cases failed
    cases result
    obtain ⟨left, reportsAfter, total⟩ := walked.reports
    refine ⟨?_, getReserveBalance_moved reports reportsAfter walked.balance total, rfl, ?_⟩
    · have balance := walked.balance
      omega
    · intro earlier rest strategy asked calls
      exact withdrawCalls_order answers [] t.distinct (List.Subset.refl _) reports
        (fun _ other listed => absurd listed (List.not_mem_nil)) calls

end Behaviour

/-! ## A queue with every kind of strategy -/

namespace SampleTreasury

def broken : Address := Address.ofNat 71
def second : Address := Address.ofNat 72

/-- As `vaultContracts`, with one vault that never pays. -/
def queueContracts : ExternalContracts VaultState :=
  { vaultContracts self with
    withdraw := fun vaults strategy amount =>
      if strategy = broken then none else (vaultContracts self).withdraw vaults strategy amount }

/-- Nothing but failures, 600 and 300 behind 400 idle. -/
def queued : TreasuryState VaultState :=
  { backed with
    external :=
      { usdc := backed.external.usdc
        assets := Function.update (Function.update (Function.update (fun _ => 0) broken 900)
          vault 600) second 300 }
    strategies := [broken, vault, second]
    distinct := by decide }

theorem queueContracts_answers :
    QueueAnswers queueContracts self queued.strategies (fun strategy => strategy = broken) where
  reverts := by
    intro strategy _ failing vaults amount
    exact if_pos (of_decide_eq_true failing)
  pays := by
    intro strategy _ paying vaults assets amount reported within
    have notBroken : strategy ≠ broken := of_decide_eq_false paying
    have assetsEq : vaults.assets strategy = assets := Option.some.inj reported
    refine ⟨_, (if_neg notBroken).trans (if_pos (assetsEq ▸ within)), ?_, ?_, ?_⟩
    · simp [queueContracts, vaultContracts]
    · simp [queueContracts, vaultContracts, assetsEq]
    · intro other _ differ
      simp [queueContracts, vaultContracts, Function.update_of_ne differ]

end SampleTreasury

open SampleTreasury in
/-- 1100 are paid with all of the first vault and part of the second, the broken one passed by. -/
theorem sampleTreasury_queue :
    ∃ after, TreasuryState.ensureIdleUsdc queueContracts self 1100 queued.strategies
        queued.external = .ok after ∧
      queueContracts.usdcBalance after self = 1100 ∧
      withdrawCalls queueContracts self 1100 queued.strategies queued.external =
        [(broken, 700), (vault, 600), (second, 100)] := by
  have reports : Reports queueContracts queued.strategies queued.external queued.external.assets :=
    fun _ _ => rfl
  have queue := ensureIdleUsdc_queue queued queueContracts_answers reports 1100
  obtain ⟨after, ran⟩ := queue.1.mpr (by decide)
  exact ⟨after, ran, (queue.2 after ran).1.trans (by decide), by decide⟩

end Usd8Core.Treasury
