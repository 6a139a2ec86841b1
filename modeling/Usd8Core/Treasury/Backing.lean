import Usd8Core.Treasury.TreasuryState
import Usd8Core.Lib.TraceRun

/-!
# The backing of USD8

What each operation does to the reserve and to the supply, for contracts around the
Treasury that move value without losing any.
-/

set_option autoImplicit false

namespace Usd8Core.Treasury

open Usd8Core.Lib.ByteWords
open Usd8Core.Lib.CheckedCall
open Usd8Core.Lib.FiniteLedger
open Usd8Core.Lib.ProRata
open Usd8Core.Lib.TraceRun
open Usd8Core.Chain

variable {σ : Type} {contracts : ExternalContracts σ} {self : Address}

/-! ## What is expected of the other contracts -/

/-- USDC moves the named amount; a strategy moves it between idle USDC and its total
assets, or reverts; a receiver's hook takes nothing from the reserve and, like anybody
but the Treasury, mints and burns no USD8. -/
structure ValuePreserving (contracts : ExternalContracts σ) (treasury : Address) : Prop where
  collected : ∀ {external after : σ} {user : Address} {amount : Nat}, user ≠ treasury →
    contracts.usdcTransfer external user treasury amount = some after →
    contracts.usdcBalance after treasury = contracts.usdcBalance external treasury + amount ∧
      ∀ strategy, strategy ≠ user →
        contracts.totalAssets after strategy = contracts.totalAssets external strategy
  paid : ∀ {external after : σ} {user : Address} {amount : Nat}, user ≠ treasury →
    contracts.usdcTransfer external treasury user amount = some after →
    contracts.usdcBalance after treasury + amount = contracts.usdcBalance external treasury ∧
      ∀ strategy, strategy ≠ user →
        contracts.totalAssets after strategy = contracts.totalAssets external strategy
  deployed : ∀ {external pushed after : σ} {strategy : Address} {amount : Nat},
    contracts.usdcTransfer external treasury strategy amount = some pushed →
    contracts.deploy pushed strategy amount = some after →
    contracts.usdcBalance after treasury + amount = contracts.usdcBalance external treasury ∧
      (∃ value, contracts.totalAssets external strategy = some value ∧
        contracts.totalAssets after strategy = some (value + amount)) ∧
      ∀ other, other ≠ strategy →
        contracts.totalAssets after other = contracts.totalAssets external other
  withdrawn : ∀ {external after : σ} {strategy : Address} {amount : Nat},
    contracts.withdraw external strategy amount = some after →
    contracts.usdcBalance after treasury = contracts.usdcBalance external treasury + amount ∧
      (∃ value, contracts.totalAssets external strategy = some (value + amount) ∧
        contracts.totalAssets after strategy = some value) ∧
      ∀ other, other ≠ strategy →
        contracts.totalAssets after other = contracts.totalAssets external other
  received : ∀ {external after : σ} {usd8 moved : Usd8} {receiver : Address} {share : Nat},
    contracts.receiveProfitDistribution external usd8 receiver share = some (after, moved) →
    contracts.usdcBalance external treasury ≤ contracts.usdcBalance after treasury ∧
      moved.totalSupply = usd8.totalSupply ∧
      ∀ strategy, contracts.totalAssets after strategy = contracts.totalAssets external strategy

/-! ## The reserve as a sum -/

/-- Every strategy reports, and with the idle USDC that makes `reserve`. -/
def Holds (contracts : ExternalContracts σ) (self : Address) (strategies : List Address)
    (external : σ) (reserve : Nat) : Prop :=
  ∃ value : Address → Nat,
    (∀ strategy ∈ strategies, contracts.totalAssets external strategy =
      some (value strategy)) ∧
    reserve = contracts.usdcBalance external self + (strategies.map value).sum

namespace TreasuryState

def IsReserve (contracts : ExternalContracts σ) (self : Address) (t : TreasuryState σ)
    (reserve : Nat) : Prop :=
  Holds contracts self t.strategies t.external reserve

/-- The reserve can be valued and covers the supply at par. -/
def Backed (contracts : ExternalContracts σ) (self : Address) (t : TreasuryState σ) : Prop :=
  ∃ reserve, t.IsReserve contracts self reserve ∧
    t.usd8.totalSupply ≤ reserve * usdcToUsd8Scale

theorem reserveLoop_ok (external : σ) (strategies : List Address) (total reserve : Nat)
    (run : reserveLoop contracts external strategies total = .ok reserve) :
    ∃ value : Address → Nat,
      (∀ strategy ∈ strategies, contracts.totalAssets external strategy =
        some (value strategy)) ∧
      reserve = total + (strategies.map value).sum := by
  refine ⟨fun strategy => (contracts.totalAssets external strategy).getD 0, ?_⟩
  induction strategies generalizing total with
  | nil =>
      cases run
      exact ⟨by simp, by simp⟩
  | cons strategy later ih =>
      obtain ⟨value, reported, run⟩ := (bind_ok_iff _ _ _).mp run
      obtain ⟨next, added, run⟩ := (bind_ok_iff _ _ _).mp run
      obtain ⟨-, nextEq⟩ := (checkedAdd_ok_iff _ _ _ _).mp added
      have present := (orRevert_ok_iff _ _ _).mp reported
      obtain ⟨others, reserveEq⟩ := ih next run
      constructor
      · intro other member
        rcases List.mem_cons.mp member with rfl | inLater
        · simp [present]
        · exact others other inLater
      · rw [reserveEq, nextEq, List.map_cons, List.sum_cons, present]
        simp only [Option.getD_some]
        omega

theorem getReserveBalance_isReserve {t : TreasuryState σ} {reserve : Nat}
    (run : t.getReserveBalance contracts self = .ok reserve) :
    t.IsReserve contracts self reserve :=
  reserveLoop_ok t.external t.strategies _ reserve run

end TreasuryState

section Sums

variable {strategies : List Address} {external after : σ} {reserve other : Nat}

theorem Holds.unique (first : Holds contracts self strategies external reserve)
    (second : Holds contracts self strategies external other) : reserve = other := by
  obtain ⟨value, reports, rfl⟩ := first
  obtain ⟨again, reportsAgain, rfl⟩ := second
  have same : strategies.map value = strategies.map again := by
    apply List.map_congr_left
    intro strategy member
    exact Option.some.inj ((reports strategy member).symm.trans (reportsAgain strategy member))
  rw [same]

/-- More idle USDC under the same strategies. -/
theorem Holds.idle (holds : Holds contracts self strategies external reserve)
    (kept : ∀ strategy ∈ strategies,
      contracts.totalAssets after strategy = contracts.totalAssets external strategy) :
    ∃ rest, reserve = contracts.usdcBalance external self + rest ∧
      Holds contracts self strategies after (contracts.usdcBalance after self + rest) := by
  obtain ⟨value, reports, rfl⟩ := holds
  refine ⟨_, rfl, value, ?_, rfl⟩
  intro strategy member
  rw [kept strategy member]
  exact reports strategy member

/-- Value moved between idle USDC and one strategy. -/
theorem Holds.moved (distinct : strategies.Nodup) (strategy : Address)
    (member : strategy ∈ strategies) (before later : Nat)
    (holds : Holds contracts self strategies external reserve)
    (reported : contracts.totalAssets external strategy = some before)
    (reportedAfter : contracts.totalAssets after strategy = some later)
    (kept : ∀ other, other ≠ strategy →
      contracts.totalAssets after other = contracts.totalAssets external other)
    (balanced : contracts.usdcBalance after self + later =
      contracts.usdcBalance external self + before) :
    Holds contracts self strategies after reserve := by
  obtain ⟨value, reports, rfl⟩ := holds
  have valueEq : value strategy = before :=
    Option.some.inj ((reports strategy member).symm.trans reported)
  refine ⟨Function.update value strategy later, ?_, ?_⟩
  · intro other otherMember
    by_cases same : other = strategy
    · subst same
      rw [Function.update_self]
      exact reportedAfter
    · rw [Function.update_of_ne same, kept other same]
      exact reports other otherMember
  · have sums := list_sum_differ_at value (Function.update value strategy later) strategy distinct
      member (fun other _ differ => Function.update_of_ne differ _ _)
    rw [Function.update_self, valueEq] at sums
    omega

end Sums

/-! ## Strategies -/

section Strategies

variable {strategies : List Address} {external after : σ} {reserve : Nat}

theorem withdraw_holds (preserving : ValuePreserving contracts self)
    (distinct : strategies.Nodup) (strategy : Address) (member : strategy ∈ strategies)
    (amount : Nat) (holds : Holds contracts self strategies external reserve)
    (run : contracts.withdraw external strategy amount = some after) :
    Holds contracts self strategies after reserve := by
  obtain ⟨balance, ⟨value, reported, reportedAfter⟩, kept⟩ := preserving.withdrawn run
  exact holds.moved distinct strategy member _ _ reported reportedAfter kept (by omega)

theorem deploy_holds (preserving : ValuePreserving contracts self)
    (distinct : strategies.Nodup) (strategy : Address) (member : strategy ∈ strategies)
    (amount : Nat) (pushed : σ) (holds : Holds contracts self strategies external reserve)
    (transferred : contracts.usdcTransfer external self strategy amount = some pushed)
    (run : contracts.deploy pushed strategy amount = some after) :
    Holds contracts self strategies after reserve := by
  obtain ⟨balance, ⟨value, reported, reportedAfter⟩, kept⟩ :=
    preserving.deployed transferred run
  exact holds.moved distinct strategy member _ _ reported reportedAfter kept (by omega)

/-- Pulling idle USDC from the strategies costs nothing. -/
theorem ensureIdleUsdc_holds (preserving : ValuePreserving contracts self) (amount : Nat)
    (distinct : strategies.Nodup) (queue : List Address) (queued : queue ⊆ strategies)
    (holds : Holds contracts self strategies external reserve)
    (run : TreasuryState.ensureIdleUsdc contracts self amount queue external = .ok after) :
    Holds contracts self strategies after reserve := by
  induction queue generalizing external with
  | nil =>
      obtain ⟨_, -, result⟩ := (bind_ok_iff _ _ _).mp run
      cases (pure_ok_iff _ _).mp result
      exact holds
  | cons strategy later ih =>
      have laterQueued : later ⊆ strategies := fun other member =>
        queued (List.mem_cons_of_mem _ member)
      rw [TreasuryState.ensureIdleUsdc] at run
      rcases (ite_ok_iff _ _ _ _).mp run with ⟨-, result⟩ | ⟨-, run⟩
      · cases (pure_ok_iff _ _).mp result
        exact holds
      obtain ⟨needed, -, run⟩ := (bind_ok_iff _ _ _).mp run
      obtain ⟨available, -, run⟩ := (bind_ok_iff _ _ _).mp run
      rcases (ite_ok_iff _ _ _ _).mp run with ⟨-, run⟩ | ⟨-, run⟩
      · exact ih laterQueued holds run
      dsimp only at run
      split at run
      next pulled withdrawn =>
        exact ih laterQueued (withdraw_holds preserving distinct strategy
          (queued (List.mem_cons_self ..)) _ holds withdrawn) run
      next => exact ih laterQueued holds run

end Strategies

end Usd8Core.Treasury
