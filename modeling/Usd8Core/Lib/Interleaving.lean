import Mathlib.Logic.Relation
import Mathlib.Tactic.Common

/-!
# Programs that share a world

A program asks a shared world one request at a time.  Any number of programs run at
once, their requests in any order, and a program may stop for good at any request.
What is proved of one program under the changes all of them may make holds of every
interleaving.
-/

set_option autoImplicit false

namespace Usd8Core.Lib.Interleaving

/-! ## Programs -/

inductive Program (Op : Type) (Reply : Op → Type) (ε α : Type) where
  | done (result : α)
  | fail (error : ε)
  | request (op : Op) (next : Reply op → Program Op Reply ε α)

namespace Program

variable {Op : Type} {Reply : Op → Type} {ε α β : Type}

def bind (program : Program Op Reply ε α) (next : α → Program Op Reply ε β) :
    Program Op Reply ε β :=
  match program with
  | .done result => next result
  | .fail error => .fail error
  | .request op rest => .request op fun reply => (rest reply).bind next

instance : Monad (Program Op Reply ε) where
  pure := .done
  bind := bind

/-- Ask and hand on the reply. -/
def ask (op : Op) : Program Op Reply ε (Reply op) := .request op .done

/-- A computed result, or the failure it ends the program with. -/
def ofExcept (result : Except ε α) : Program Op Reply ε α :=
  match result with
  | .ok value => .done value
  | .error error => .fail error

/-- End the program with the error if the condition holds. -/
def failIf (condition : Prop) [Decidable condition] (error : ε) : Program Op Reply ε Unit :=
  if condition then .fail error else .done ()

/-- Run the program and look at its failure instead of ending with it. -/
def attempt (program : Program Op Reply ε α) : Program Op Reply ε (Except ε α) :=
  match program with
  | .done result => .done (.ok result)
  | .fail error => .done (.error error)
  | .request op next => .request op fun reply => (next reply).attempt

@[simp] theorem done_bind (result : α) (next : α → Program Op Reply ε β) :
    (Program.done result >>= next) = next result := rfl

@[simp] theorem pure_eq_done (result : α) :
    (pure result : Program Op Reply ε α) = .done result := rfl

@[simp] theorem fail_bind (error : ε) (next : α → Program Op Reply ε β) :
    ((Program.fail error : Program Op Reply ε α) >>= next) = .fail error := rfl

end Program

/-! ## Interleavings -/

/-- An agent with the number of the thread that runs its program. -/
abbrev Caller (A : Type) := Nat × A

/-- How a request of a caller is served, how the world moves by itself, and which
programs an agent may start. -/
structure Machine (W A Op : Type) (Reply : Op → Type) (ε α : Type) where
  serve : Caller A → W → (op : Op) → Reply op → W → Prop
  drift : W → W → Prop
  starts : W → A → Program Op Reply ε α → Prop

structure Thread (A Op : Type) (Reply : Op → Type) (ε α : Type) where
  agent : A
  program : Program Op Reply ε α

structure Config (W A Op : Type) (Reply : Op → Type) (ε α : Type) where
  world : W
  threads : List (Thread A Op Reply ε α)

variable {W A Op : Type} {Reply : Op → Type} {ε α β : Type}

/-- One program starts, has one request served, or the world moves by itself.  A
program that has crashed is one whose turn never comes again. -/
inductive Step (machine : Machine W A Op Reply ε α) :
    Config W A Op Reply ε α → Config W A Op Reply ε α → Prop
  | started (world : W) (threads : List (Thread A Op Reply ε α)) (agent : A)
      (program : Program Op Reply ε α) (allowed : machine.starts world agent program) :
      Step machine ⟨world, threads⟩ ⟨world, threads ++ [⟨agent, program⟩]⟩
  | served (world after : W) (before later : List (Thread A Op Reply ε α)) (agent : A) (op : Op)
      (next : Reply op → Program Op Reply ε α) (reply : Reply op)
      (run : machine.serve (before.length, agent) world op reply after) :
      Step machine ⟨world, before ++ ⟨agent, .request op next⟩ :: later⟩
        ⟨after, before ++ ⟨agent, next reply⟩ :: later⟩
  | drifted (world after : W) (threads : List (Thread A Op Reply ε α))
      (run : machine.drift world after) :
      Step machine ⟨world, threads⟩ ⟨after, threads⟩

abbrev Steps (machine : Machine W A Op Reply ε α) :
    Config W A Op Reply ε α → Config W A Op Reply ε α → Prop :=
  Relation.ReflTransGen (Step machine)

/-! ## One program alone -/

/-- The program with every request answered at once. -/
def runAlone (answer : W → (op : Op) → Reply op × W) :
    Program Op Reply ε α → W → Program Op Reply ε α × W
  | .done result, world => (.done result, world)
  | .fail error, world => (.fail error, world)
  | .request op next, world =>
      runAlone answer (next (answer world op).1) (answer world op).2

theorem steps_runAlone {machine : Machine W A Op Reply ε α} {agent : A}
    (answer : W → (op : Op) → Reply op × W) (good : W → Prop)
    (threads : List (Thread A Op Reply ε α))
    (serves : ∀ world op, good world → machine.serve (threads.length, agent) world op
      (answer world op).1 (answer world op).2)
    (keeps : ∀ world op, good world → good (answer world op).2)
    (program : Program Op Reply ε α) (world : W) (isGood : good world) :
    Steps machine ⟨world, threads ++ [⟨agent, program⟩]⟩
      ⟨(runAlone answer program world).2,
        threads ++ [⟨agent, (runAlone answer program world).1⟩]⟩ := by
  induction program generalizing world with
  | done result => exact .refl
  | fail error => exact .refl
  | request op next ih =>
      refine .head ?_ (ih (answer world op).1 (answer world op).2 (keeps world op isGood))
      exact .served world _ threads [] agent op next _ (serves world op isGood)

/-! ## Safety of one program -/

/-- What may be relied on: `valid` worlds, what `others` do to them between two requests
of a caller, how they `grow` when its own requests are counted in, and what a caller
that does nothing stays: `idle`. -/
structure Rely (W A : Type) where
  valid : W → Prop
  others : Caller A → W → W → Prop
  grows : Caller A → W → W → Prop
  idle : Caller A → W → Prop
  refl : ∀ caller world, others caller world world
  trans : ∀ {caller first second third}, others caller first second →
    others caller second third → others caller first third
  grows_of_others : ∀ {caller first second}, others caller first second →
    grows caller first second
  grows_trans : ∀ {caller first second third}, grows caller first second →
    grows caller second third → grows caller first third
  idle_of_others : ∀ {caller first second}, others caller first second → idle caller first →
    idle caller second

/-- A caller that does nothing to the world that others may not do. -/
def Rely.careful (rely : Rely W A) : Rely W A :=
  { rely with grows := rely.others, grows_of_others := id, grows_trans := rely.trans }

/-- What is safe under the strict one is safe under the loose one. -/
structure Rely.Refines (strict loose : Rely W A) : Prop where
  valid : ∀ world, strict.valid world ↔ loose.valid world
  others : ∀ {caller first second}, loose.others caller first second →
    strict.others caller first second
  grows : ∀ {caller first second}, strict.grows caller first second →
    loose.grows caller first second

theorem Rely.Refines.rfl {rely : Rely W A} : rely.Refines rely := ⟨fun _ => Iff.rfl, id, id⟩

theorem Rely.careful_refines (rely : Rely W A) : rely.careful.Refines rely :=
  ⟨fun _ => Iff.rfl, id, rely.grows_of_others⟩

/-- Every request of the program keeps the world valid and growing, whatever others do
in between, and the result is right in every later world. -/
def Safe (machine : Machine W A Op Reply ε α) (rely : Rely W A) (caller : Caller A)
    (post : Except ε β → W → Prop) : Program Op Reply ε β → W → Prop
  | .done result, world =>
      ∀ later, rely.others caller world later → rely.valid later → post (.ok result) later
  | .fail error, world =>
      ∀ later, rely.others caller world later → rely.valid later → post (.error error) later
  | .request op next, world =>
      ∀ current reply after, rely.others caller world current → rely.valid current →
        machine.serve caller current op reply after →
        rely.valid after ∧ rely.grows caller current after ∧
          Safe machine rely caller post (next reply) after

/-- What holds of a result and what of a failure. -/
def Ends (ok : β → W → Prop) (failed : ε → W → Prop) : Except ε β → W → Prop
  | .ok value, world => ok value world
  | .error error, world => failed error world

/-- A result that is right if there is one. -/
abbrev OnOk (post : β → W → Prop) : Except ε β → W → Prop := Ends post fun _ _ => True

section Rules

variable {machine : Machine W A Op Reply ε α} {rely strict : Rely W A} {caller : Caller A}
  {world later : W}

theorem Safe.persists {post : Except ε β → W → Prop} {program : Program Op Reply ε β}
    (safe : Safe machine rely caller post program world)
    (grown : rely.others caller world later) :
    Safe machine rely caller post program later := by
  cases program with
  | done result =>
      intro current since holds
      exact safe current (rely.trans grown since) holds
  | fail error =>
      intro current since holds
      exact safe current (rely.trans grown since) holds
  | request op next =>
      intro current reply after since holds served
      exact safe current reply after (rely.trans grown since) holds served

/-- A program is safe if it is in every world that may come before its next request. -/
theorem safe_of_later {post : Except ε β → W → Prop} (program : Program Op Reply ε β)
    (safe : ∀ current, rely.others caller world current → rely.valid current →
      Safe machine rely caller post program current) :
    Safe machine rely caller post program world := by
  cases program with
  | done result =>
      intro current grown holds
      exact safe current grown holds current (rely.refl caller current) holds
  | fail error =>
      intro current grown holds
      exact safe current grown holds current (rely.refl caller current) holds
  | request op next =>
      intro current reply after grown holds served
      exact safe current grown holds current reply after (rely.refl caller current) holds served

theorem Safe.weaken {post other : Except ε β → W → Prop} {program : Program Op Reply ε β}
    (safe : Safe machine rely caller post program world)
    (implies : ∀ result current, rely.valid current → post result current →
      other result current) :
    Safe machine rely caller other program world := by
  induction program generalizing world with
  | done result =>
      intro current grown holds
      exact implies _ current holds (safe current grown holds)
  | fail error =>
      intro current grown holds
      exact implies _ current holds (safe current grown holds)
  | request op next ih =>
      intro current reply after grown holds served
      obtain ⟨validAfter, grows, rest⟩ := safe current reply after grown holds served
      exact ⟨validAfter, grows, ih reply rest⟩

theorem Safe.loosen {post : Except ε β → W → Prop} {program : Program Op Reply ε β}
    (refines : strict.Refines rely) (safe : Safe machine strict caller post program world) :
    Safe machine rely caller post program world := by
  induction program generalizing world with
  | done result =>
      intro current grown holds
      exact safe current (refines.others grown) ((refines.valid current).mpr holds)
  | fail error =>
      intro current grown holds
      exact safe current (refines.others grown) ((refines.valid current).mpr holds)
  | request op next ih =>
      intro current reply after grown holds served
      obtain ⟨validAfter, grows, rest⟩ :=
        safe current reply after (refines.others grown) ((refines.valid current).mpr holds) served
      exact ⟨(refines.valid after).mp validAfter, refines.grows grows, ih reply rest⟩

/-- One program after another; the first may be held to a stricter rely. -/
theorem Safe.bindUnder {γ : Type} {middle : Except ε β → W → Prop}
    {post : Except ε γ → W → Prop} {program : Program Op Reply ε β}
    {next : β → Program Op Reply ε γ} (refines : strict.Refines rely)
    (first : Safe machine strict caller middle program world)
    (failed : ∀ error current, strict.grows caller world current → rely.valid current →
      middle (.error error) current → post (.error error) current)
    (second : ∀ value current, strict.grows caller world current → rely.valid current →
      middle (.ok value) current → Safe machine rely caller post (next value) current) :
    Safe machine rely caller post (program >>= next) world := by
  induction program generalizing world with
  | done result =>
      apply safe_of_later
      intro current grown holds
      have seen := refines.others grown
      exact second result current (strict.grows_of_others seen) holds
        (first current seen ((refines.valid current).mpr holds))
  | fail error =>
      intro current grown holds
      have seen := refines.others grown
      exact failed error current (strict.grows_of_others seen) holds
        (first current seen ((refines.valid current).mpr holds))
  | request op rest ih =>
      intro current reply after grown holds served
      have seen := refines.others grown
      obtain ⟨validAfter, grows, remaining⟩ :=
        first current reply after seen ((refines.valid current).mpr holds) served
      have since := strict.grows_trans (strict.grows_of_others seen) grows
      refine ⟨(refines.valid after).mp validAfter, refines.grows grows, ih reply remaining ?_ ?_⟩
      · intro error final later
        exact failed error final (strict.grows_trans since later)
      · intro value final later
        exact second value final (strict.grows_trans since later)

theorem Safe.bind {γ : Type} {middle : Except ε β → W → Prop} {post : Except ε γ → W → Prop}
    {program : Program Op Reply ε β} {next : β → Program Op Reply ε γ}
    (first : Safe machine rely caller middle program world)
    (failed : ∀ error current, rely.grows caller world current → rely.valid current →
      middle (.error error) current → post (.error error) current)
    (second : ∀ value current, rely.grows caller world current → rely.valid current →
      middle (.ok value) current → Safe machine rely caller post (next value) current) :
    Safe machine rely caller post (program >>= next) world :=
  .bindUnder .rfl first failed second

theorem Safe.bindEnds {γ : Type} {middle : β → W → Prop} {post : γ → W → Prop}
    {failed : ε → W → Prop} {program : Program Op Reply ε β} {next : β → Program Op Reply ε γ}
    (first : Safe machine rely caller (Ends middle failed) program world)
    (second : ∀ value current, rely.grows caller world current → rely.valid current →
      middle value current → Safe machine rely caller (Ends post failed) (next value) current) :
    Safe machine rely caller (Ends post failed) (program >>= next) world :=
  first.bind (fun _ _ _ _ wrong => wrong) second

theorem Safe.bindOk {γ : Type} {middle : β → W → Prop} {post : γ → W → Prop}
    {failed : ε → W → Prop} {program : Program Op Reply ε β} {next : β → Program Op Reply ε γ}
    (first : Safe machine rely caller (Ends middle failed) program world)
    (second : ∀ value current, rely.grows caller world current → rely.valid current →
      middle value current → Safe machine rely caller (OnOk post) (next value) current) :
    Safe machine rely caller (OnOk post) (program >>= next) world :=
  first.bind (fun _ _ _ _ _ => trivial) second

/-- After a careful program the world is as others may have left it. -/
theorem Safe.bindCareful {γ : Type} {middle : β → W → Prop} {post : γ → W → Prop}
    {failed : ε → W → Prop} {program : Program Op Reply ε β} {next : β → Program Op Reply ε γ}
    (first : Safe machine rely.careful caller (Ends middle failed) program world)
    (second : ∀ value current, rely.others caller world current → rely.valid current →
      middle value current → Safe machine rely caller (OnOk post) (next value) current) :
    Safe machine rely caller (OnOk post) (program >>= next) world :=
  first.bindUnder rely.careful_refines (fun _ _ _ _ _ => trivial) second

theorem Safe.endsOf {middle post : β → W → Prop} {wrong failed : ε → W → Prop}
    {program : Program Op Reply ε β}
    (safe : Safe machine rely caller (Ends middle wrong) program world)
    (onOk : ∀ value current, rely.valid current → middle value current → post value current)
    (onError : ∀ error current, rely.valid current → wrong error current →
      failed error current) :
    Safe machine rely caller (Ends post failed) program world := by
  apply safe.weaken
  intro result current holds right
  cases result with
  | ok value => exact onOk value current holds right
  | error error => exact onError error current holds right

theorem Safe.forget {post : Except ε β → W → Prop} {program : Program Op Reply ε β}
    (safe : Safe machine rely caller post program world) :
    Safe machine rely caller (OnOk fun _ _ => True) program world := by
  apply safe.weaken
  intro result current _ _
  cases result <;> trivial

theorem Safe.attempt {post : Except ε β → W → Prop} {program : Program Op Reply ε β}
    (safe : Safe machine rely caller post program world) :
    Safe machine rely caller (OnOk post) program.attempt world := by
  induction program generalizing world with
  | done result => exact safe
  | fail error => exact safe
  | request op next ih =>
      intro current reply after grown holds served
      obtain ⟨validAfter, grows, rest⟩ := safe current reply after grown holds served
      exact ⟨validAfter, grows, ih reply rest⟩

theorem safe_failWith {post : β → W → Prop} {failed : ε → W → Prop} (error : ε)
    (wrong : ∀ current, rely.others caller world current → rely.valid current →
      failed error current) :
    Safe machine rely caller (Ends post failed) (.fail error : Program Op Reply ε β) world :=
  wrong

theorem safe_fail {post : β → W → Prop} (error : ε) :
    Safe machine rely caller (OnOk post) (.fail error : Program Op Reply ε β) world :=
  safe_failWith error fun _ _ _ => trivial

/-- A result that is right from here on. -/
theorem safe_done {post : β → W → Prop} {failed : ε → W → Prop} (value : β)
    (right : ∀ current, rely.others caller world current → rely.valid current →
      post value current) :
    Safe machine rely caller (Ends post failed) (.done value : Program Op Reply ε β) world :=
  right

theorem safe_ofExcept_of {post : β → W → Prop} {failed : ε → W → Prop} (result : Except ε β)
    (right : ∀ value current, result = .ok value → rely.others caller world current →
      rely.valid current → post value current)
    (wrong : ∀ error current, result = .error error → rely.others caller world current →
      rely.valid current → failed error current) :
    Safe machine rely caller (Ends post failed)
      (Program.ofExcept result : Program Op Reply ε β) world := by
  cases result with
  | ok value => exact safe_done value fun current grown holds => right value current rfl grown holds
  | error error =>
      exact safe_failWith error fun current grown holds => wrong error current rfl grown holds

theorem safe_ofExcept (result : Except ε β) :
    Safe machine rely caller
      (Ends (fun value _ => result = .ok value) fun error _ => result = .error error)
      (Program.ofExcept result : Program Op Reply ε β) world :=
  safe_ofExcept_of result (fun _ _ same _ _ => same) fun _ _ same _ _ => same

theorem safe_failIf (condition : Prop) [Decidable condition] (error : ε) :
    Safe machine rely caller (Ends (fun _ _ => ¬ condition) fun found _ => found = error)
      (Program.failIf condition error : Program Op Reply ε Unit) world := by
  unfold Program.failIf
  split
  · exact safe_failWith error fun _ _ _ => rfl
  · rename_i passes
    exact safe_done () fun _ _ _ => passes

end Rules

/-! ## Safety of every interleaving -/

/-- Every thread of the configuration is safe in its valid world, and what has not
started yet has done nothing. -/
structure AllSafe (machine : Machine W A Op Reply ε α) (rely : Rely W A)
    (post : Caller A → Except ε α → W → Prop) (config : Config W A Op Reply ε α) : Prop where
  valid : rely.valid config.world
  threads : ∀ number thread, config.threads[number]? = some thread →
    Safe machine rely (number, thread.agent) (post (number, thread.agent)) thread.program
      config.world
  unused : ∀ caller, config.threads.length ≤ caller.1 → rely.idle caller config.world

/-- The machine keeps to what its callers rely on. -/
structure Respects (machine : Machine W A Op Reply ε α) (rely : Rely W A)
    (post : Caller A → Except ε α → W → Prop) : Prop where
  starts : ∀ world number agent program, rely.valid world → rely.idle (number, agent) world →
    machine.starts world agent program →
      Safe machine rely (number, agent) (post (number, agent)) program world
  serves : ∀ {caller other : Caller A} {world op reply after}, caller.1 ≠ other.1 →
    machine.serve caller world op reply after → rely.grows caller world after →
    rely.others other world after
  drifts : ∀ world after, rely.valid world → machine.drift world after →
    rely.valid after ∧ ∀ caller, rely.others caller world after

section Soundness

variable {machine : Machine W A Op Reply ε α} {rely : Rely W A}
  {post : Caller A → Except ε α → W → Prop} {config next : Config W A Op Reply ε α}

theorem step_allSafe (respects : Respects machine rely post)
    (safe : AllSafe machine rely post config) (step : Step machine config next) :
    AllSafe machine rely post next := by
  cases step with
  | started world threads agent program allowed =>
      refine ⟨safe.valid, ?_, ?_⟩
      · intro number thread present
        by_cases old : number < threads.length
        · rw [List.getElem?_append_left old] at present
          exact safe.threads number thread present
        · rw [List.getElem?_append_right (by omega), List.getElem?_singleton] at present
          split at present
          · cases present
            have idle := safe.unused (number, agent) (Nat.le_of_not_lt old)
            exact respects.starts world number agent program safe.valid idle allowed
          · cases present
      · intro caller later
        rw [List.length_append] at later
        exact safe.unused caller (Nat.le_trans (Nat.le_add_right _ _) later)
  | served world after before later agent op rest reply run =>
      have running := safe.threads before.length ⟨agent, .request op rest⟩ (by simp)
      obtain ⟨validAfter, grows, remaining⟩ :=
        running world reply after (rely.refl _ world) safe.valid run
      refine ⟨validAfter, ?_, ?_⟩
      · intro number thread present
        by_cases same : number = before.length
        · subst same
          rw [List.getElem?_append_right (Nat.le_refl _), Nat.sub_self] at present
          cases present
          exact remaining
        · -- the other threads stand where they stood
          have stood : (before ++ (⟨agent, .request op rest⟩ ::
              later : List (Thread A Op Reply ε α)))[number]? = some thread := by
            by_cases first : number < before.length
            · rw [List.getElem?_append_left first] at present ⊢
              exact present
            · rw [List.getElem?_append_right (by omega)] at present ⊢
              obtain ⟨offset, shifted⟩ : ∃ offset, number - before.length = offset + 1 :=
                ⟨number - before.length - 1, by omega⟩
              rw [shifted, List.getElem?_cons_succ] at present ⊢
              exact present
          have differ : (before.length, agent).1 ≠ (number, thread.agent).1 := Ne.symm same
          have others := respects.serves differ run grows
          exact (safe.threads number thread stood).persists others
      · intro caller unstarted
        simp only [List.length_append, List.length_cons] at unstarted
        have differ : (before.length, agent).1 ≠ caller.1 := by
          simp only
          omega
        refine rely.idle_of_others (respects.serves differ run grows) (safe.unused caller ?_)
        simp only [List.length_append, List.length_cons]
        exact unstarted
  | drifted world after threads run =>
      obtain ⟨validAfter, others⟩ := respects.drifts world after safe.valid run
      refine ⟨validAfter, ?_, ?_⟩
      · intro number thread present
        exact (safe.threads number thread present).persists (others _)
      · intro caller unstarted
        exact rely.idle_of_others (others caller) (safe.unused caller unstarted)

/-- Whatever the interleaving, the world stays valid, and every program that has ended
has ended rightly. -/
theorem steps_allSafe (respects : Respects machine rely post)
    (safe : AllSafe machine rely post config) (steps : Steps machine config next) :
    AllSafe machine rely post next := by
  induction steps with
  | refl => exact safe
  | tail _ last ih => exact step_allSafe respects ih last

theorem allSafe_nil {world : W} (valid : rely.valid world)
    (idle : ∀ caller, rely.idle caller world) : AllSafe machine rely post ⟨world, []⟩ :=
  ⟨valid, by simp, fun caller _ => idle caller⟩

theorem AllSafe.result (safe : AllSafe machine rely post config) {number : Nat} {agent : A}
    {result : α} (ended : config.threads[number]? = some ⟨agent, .done result⟩) :
    post (number, agent) (.ok result) config.world :=
  safe.threads number _ ended config.world (rely.refl _ _) safe.valid

end Soundness

end Usd8Core.Lib.Interleaving
