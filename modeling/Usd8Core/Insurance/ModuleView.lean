import Usd8Core.Insurance.EscrowBook
import Usd8Core.Insurance.Deployment

/-!
# The system as one module sees it

A step of the system is either a call to the module, its deployment, or
something else that leaves its storage alone and can only add to its tokens.
-/

set_option autoImplicit false

namespace Usd8Core.Insurance

open Usd8Core.Lib.ByteWords
open Usd8Core.Lib.CheckedCall
open Usd8Core.Chain
open Usd8Core.Pool

/-- The tokens and boosters of an account did not shrink. -/
structure Richer (account : Address) (w next : World) : Prop where
  tokens : ∀ token, w.erc20 token account ≤ next.erc20 token account
  boosters : ∀ collection id, w.erc1155 collection id account ≤ next.erc1155 collection id account

/-- The Registry recorded scores only, or ran one of its own calls. -/
inductive RegistryMoved (w next : World) : Prop
  | scored (same : next.registry = { w.registry with scoreSpent := next.registry.scoreSpent })
  | called (sender : Address) (call : RegistryCall)
      (run : Registry.exec (w.registryEnv sender) w.registry call = .ok next.registry)

/-- One step of the system, seen from the module at `m`. -/
inductive ModuleView (platform : Platform) (m : Address) (w next : World) : Tx → Prop
  | bystander (tx : Tx) (notCalled : ∀ sender call, tx ≠ .module m sender call)
      (same : next.modules m = w.modules m)
      (richer : (w.modules m).isSome = true → Richer m w next) (registry : RegistryMoved w next)
      (later : w.now ≤ next.now) : ModuleView platform m w next tx
  | deployed (fresh : w.modules m = none) (nextEq : next = w.setModule m DefiInsurance.initial) :
      ModuleView platform m w next (.deployModule m)
  | acted (sender : Address) (call : ModuleCall) (external : w.IsExternal sender)
      (run : w.callModule platform m sender call = .ok next) :
      ModuleView platform m w next (.module m sender call)

section View

variable {platform : Platform} {m sender : Address} {w next : World}

theorem Richer.ofSame {account : Address} (tokens : next.erc20 = w.erc20)
    (boosters : next.erc1155 = w.erc1155) : Richer account w next :=
  ⟨fun _ => by rw [tokens], fun _ _ => by rw [boosters]⟩

theorem Richer.trans {account : Address} {middle : World} (first : Richer account w middle)
    (second : Richer account middle next) : Richer account w next :=
  ⟨fun token => (first.tokens token).trans (second.tokens token),
    fun collection id => (first.boosters collection id).trans (second.boosters collection id)⟩

theorem callPool_richer {account : Address} (p caller : Address) (call : PoolCall)
    (notPool : account ≠ p) (notCaller : account ≠ caller)
    (run : w.callPool p caller call = .ok next) : Richer account w next := by
  obtain ⟨pool, tx, -, executed, nextEq⟩ := callPool_ok caller call run
  have others := (exec_frame call executed).others
  rw [emitAll_eq] at nextEq
  subst nextEq
  exact ⟨fun token => others token account notPool notCaller, fun _ _ => le_rfl⟩

/-- Only the module, the sender and the pools can lose tokens in a module call. -/
theorem ModuleEffect.richer {account : Address} (notModule : account ≠ m)
    (notSender : account ≠ sender) (notPool : (w.pools account).isSome = false)
    (effect : ModuleEffect platform m sender w next) : Richer account w next := by
  cases effect with
  | stored before after deployed => exact Richer.ofSame rfl rfl
  | emitted event own => exact Richer.ofSame rfl rfl
  | moved token payer recipient amount erc20 payerKnown run =>
      refine ⟨fun other => ?_, fun _ _ => le_rfl⟩
      apply erc20Transfer_le _ _ _ _ _ _ run
      rcases payerKnown with rfl | rfl
      · exact notModule
      · exact notSender
  | boosted erc1155 others =>
      exact ⟨fun _ => le_rfl, fun collection id => others collection id account notModule notSender⟩
  | called _ p call allowed run =>
      apply callPool_richer p m call _ notModule run
      rintro rfl
      obtain ⟨pool, -, present, -⟩ := callPool_ok m call run
      rw [present] at notPool
      cases notPool
  | scored accountScored amount registry event run => exact Richer.ofSame rfl rfl

theorem effects_richer {account : Address} (notModule : account ≠ m)
    (notSender : account ≠ sender) (notPool : (w.pools account).isSome = false)
    (effects : ModuleEffects platform m sender w next) : Richer account w next := by
  induction effects with
  | refl => exact Richer.ofSame rfl rfl
  | tail before last ih =>
      have stillNoPool := (effects_frame before).pools account
      exact ih.trans (last.richer notModule notSender (stillNoPool.trans notPool))

theorem step_moduleView {tx : Tx} (deployment : Deployment w)
    (ran : step platform w tx = .ok next) : ModuleView platform m w next tx := by
  cases step_cases ran with
  | registry sender call external run =>
      unfold World.callRegistry at run
      obtain ⟨registry, executed, result⟩ := (bind_ok_iff _ _ _).mp run
      cases (pure_ok_iff _ _).mp result
      exact .bystander _ (by simp) rfl (fun _ => Richer.ofSame rfl rfl) (.called sender call executed)
        le_rfl
  | module other sender call external run =>
      by_cases same : other = m
      · subst same
        exact .acted sender call external run
      · have effects := callModule_effects call run
        have frame := effects_frame effects
        refine .bystander _ ?_ (frame.others m (Ne.symm same)) ?_ (.scored frame.registry) ?_
        · intro caller called txEq
          injection txEq with sameModule
          exact same sameModule
        · intro deployed
          refine effects_richer (Ne.symm same) ?_ (deployment.apart m deployed) effects
          rintro rfl
          rw [(Deployment.notExternal external).2.1] at deployed
          cases deployed
        · rw [World.now, World.now, frame.block]
  | pool p sender call external run =>
      obtain ⟨sameBlock, sameRegistry, sameModules, -, -⟩ := callPool_frame sender call run
      refine .bystander _ (by simp) (by rw [sameModules]) ?_ (.scored (by rw [sameRegistry])) ?_
      · intro deployed
        apply callPool_richer p sender call _ _ run
        · rintro rfl
          obtain ⟨pool, -, present, -⟩ := callPool_ok sender call run
          have noPool := deployment.apart m deployed
          rw [present] at noPool
          cases noPool
        · rintro rfl
          rw [(Deployment.notExternal external).2.1] at deployed
          cases deployed
      · rw [World.now, World.now, sameBlock]
  | tokens _ move erc20 erc1155 erc20Kept erc1155Kept nextEq =>
      subst nextEq
      refine .bystander _ ?_ rfl ?_ (.scored rfl) le_rfl
      · rintro caller called rfl
        exact move
      · intro deployed
        have internal : ¬ w.IsExternal m := by
          intro external
          rw [(Deployment.notExternal external).2.1] at deployed
          cases deployed
        exact ⟨fun token => erc20Kept token m internal,
          fun collection id => erc1155Kept collection id m internal⟩
  | moduleDeployed other run =>
      obtain ⟨external, nextEq⟩ := deployModule_ok run
      by_cases same : other = m
      · subst same
        exact .deployed (Option.isNone_iff_eq_none.mp external.2.1) nextEq
      · subst nextEq
        exact .bystander _ (by simp) (setModule_other _ (Ne.symm same))
          (fun _ => Richer.ofSame rfl rfl) (.scored rfl) le_rfl
  | poolDeployed p asset run =>
      obtain ⟨-, -, -, nextEq⟩ := deployPool_ok p asset run
      subst nextEq
      exact .bystander _ (by simp) rfl (fun _ => Richer.ofSame rfl rfl) (.scored rfl) le_rfl
  | mined block later higher nextEq =>
      subst nextEq
      exact .bystander _ (by simp) rfl (fun _ => Richer.ofSame rfl rfl) (.scored rfl) later

end View

end Usd8Core.Insurance
