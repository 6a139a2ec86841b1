import Usd8Core.Lib.Interleaving

/-!
# Programs of some requests only

A program all of whose requests are harmless is safe without a look at its branches, and
one that is safe ends in a world that has grown from where it began.
-/

set_option autoImplicit false

namespace Usd8Core.Lib.Interleaving

variable {W A Op : Type} {Reply : Op → Type} {ε α β : Type} {allowed : Op → Prop}

/-- Every request of the program is an allowed one, whatever was replied before. -/
def Program.Only (allowed : Op → Prop) : Program Op Reply ε α → Prop
  | .done _ => True
  | .fail _ => True
  | .request op next => allowed op ∧ ∀ reply, (next reply).Only allowed

@[simp] theorem only_done (value : α) :
    (Program.done value : Program Op Reply ε α).Only allowed := trivial

@[simp] theorem only_fail (error : ε) :
    (Program.fail error : Program Op Reply ε α).Only allowed := trivial

@[simp] theorem only_request (op : Op) (next : Reply op → Program Op Reply ε α) :
    (Program.request op next).Only allowed ↔ allowed op ∧ ∀ reply, (next reply).Only allowed :=
  Iff.rfl

@[simp] theorem only_ofExcept (result : Except ε α) :
    (Program.ofExcept result : Program Op Reply ε α).Only allowed := by
  cases result <;> trivial

@[simp] theorem only_failIf (condition : Prop) [Decidable condition] (error : ε) :
    (Program.failIf condition error : Program Op Reply ε Unit).Only allowed := by
  unfold Program.failIf
  split <;> trivial

theorem Program.Only.bind {program : Program Op Reply ε α} {next : α → Program Op Reply ε β}
    (first : program.Only allowed) (second : ∀ value, (next value).Only allowed) :
    (program >>= next).Only allowed := by
  induction program with
  | done value => exact second value
  | fail error => trivial
  | request op rest ih => exact ⟨first.1, fun reply => ih reply (first.2 reply)⟩

theorem Program.Only.attempt {program : Program Op Reply ε α} (only : program.Only allowed) :
    program.attempt.Only allowed := by
  induction program with
  | done value => trivial
  | fail error => trivial
  | request op next ih => exact ⟨only.1, fun reply => ih reply (only.2 reply)⟩

/-- If every allowed request keeps the world valid and growing, so does the program. -/
theorem Program.Only.safe {machine : Machine W A Op Reply ε α} {rely : Rely W A}
    {caller : Caller A} {world : W} {program : Program Op Reply ε β}
    (only : program.Only allowed)
    (harmless : ∀ current op reply after, rely.valid current → allowed op →
      machine.serve caller current op reply after →
        rely.valid after ∧ rely.grows caller current after) :
    Safe machine rely caller (OnOk fun _ _ => True) program world := by
  induction program generalizing world with
  | done value => exact safe_done value fun _ _ _ => trivial
  | fail error => exact safe_fail error
  | request op next ih =>
      intro current reply after _ holds served
      obtain ⟨validAfter, grows⟩ := harmless current op reply after holds only.1 served
      exact ⟨validAfter, grows, ih reply (only.2 reply)⟩

/-- What a program ends with comes after where it began. -/
theorem Safe.grown {machine : Machine W A Op Reply ε α} {rely : Rely W A} {caller : Caller A}
    {world : W} {post : Except ε β → W → Prop} {program : Program Op Reply ε β}
    (safe : Safe machine rely caller post program world) :
    Safe machine rely caller (fun result current =>
      rely.grows caller world current ∧ post result current) program world := by
  induction program generalizing world with
  | done value =>
      intro current since holds
      exact ⟨rely.grows_of_others since, safe current since holds⟩
  | fail error =>
      intro current since holds
      exact ⟨rely.grows_of_others since, safe current since holds⟩
  | request op next ih =>
      intro current reply after since holds served
      obtain ⟨validAfter, grows, rest⟩ := safe current reply after since holds served
      have toAfter := rely.grows_trans (rely.grows_of_others since) grows
      refine ⟨validAfter, grows, (ih reply rest).weaken ?_⟩
      exact fun _ _ _ ended => ⟨rely.grows_trans toAfter ended.1, ended.2⟩

end Usd8Core.Lib.Interleaving
