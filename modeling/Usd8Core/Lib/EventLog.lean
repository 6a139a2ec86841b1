import Mathlib.Data.List.Infix
import Mathlib.Tactic.Common

/-!
# Logs in which every event was allowed

A log keeps everything that happened in the order it happened.  What an event needed is
asked of the log before it, so the prefixes of a log are its past moments.
-/

set_option autoImplicit false

namespace Usd8Core.Lib.EventLog

variable {E : Type}

inductive Legal (allows : List E → E → Prop) : List E → Prop
  | nil : Legal allows []
  | snoc (log : List E) (event : E) (earlier : Legal allows log) (allowed : allows log event) :
      Legal allows (log ++ [event])

/-- The event came right after what was there before. -/
def Occurs (log before : List E) (event : E) : Prop := before ++ [event] <+: log

variable {allows : List E → E → Prop} {log before earlier : List E} {event other : E}

theorem Occurs.mem (occurs : Occurs log before event) : event ∈ log :=
  List.IsPrefix.subset occurs (by simp)

theorem Occurs.before_isPrefix (occurs : Occurs log before event) : before <+: log :=
  (List.prefix_append before [event]).trans occurs

theorem Occurs.of_isPrefix (occurs : Occurs earlier before event) (older : earlier <+: log) :
    Occurs log before event :=
  List.IsPrefix.trans occurs older

theorem exists_occurs (member : event ∈ log) : ∃ before, Occurs log before event := by
  obtain ⟨before, after, split⟩ := List.append_of_mem member
  refine ⟨before, after, ?_⟩
  rw [split, List.append_assoc]
  rfl

theorem occurs_last : Occurs (log ++ [event]) log event := List.prefix_rfl

theorem occurs_append_iff : Occurs (log ++ [other]) before event ↔
    (before = log ∧ event = other) ∨ Occurs log before event := by
  rw [Occurs, List.prefix_concat_iff]
  apply or_congr_left
  constructor
  · intro whole
    obtain ⟨sameLog, sameEvent⟩ := List.append_inj' whole rfl
    exact ⟨sameLog, List.singleton_inj.mp sameEvent⟩
  · rintro ⟨sameLog, sameEvent⟩
    rw [sameLog, sameEvent]

/-- A past moment is before an event or has it in its log. -/
theorem Occurs.before_or_after (occurs : Occurs log before event) (past : earlier <+: log) :
    earlier <+: before ∨ Occurs earlier before event := by
  rcases List.prefix_or_prefix_of_prefix past occurs with older | newer
  · rcases List.prefix_concat_iff.mp older with whole | older
    · right
      rw [Occurs, whole]
    · exact .inl older
  · exact .inr newer

theorem Legal.of_isPrefix (legal : Legal allows log) (past : earlier <+: log) :
    Legal allows earlier := by
  induction legal with
  | nil =>
      rw [List.prefix_nil.mp past]
      exact .nil
  | snoc log event older allowed ih =>
      rcases List.prefix_concat_iff.mp past with whole | inside
      · rw [whole]
        exact .snoc log event older allowed
      · exact ih inside

theorem Legal.allowed (legal : Legal allows log) (occurs : Occurs log before event) :
    allows before event := by
  have ended := legal.of_isPrefix occurs
  generalize whole : before ++ [event] = reached at ended
  cases ended with
  | nil => simp at whole
  | snoc log last older allowed =>
      obtain ⟨sameLog, sameEvent⟩ := List.append_inj' whole rfl
      rw [sameLog, List.singleton_inj.mp sameEvent]
      exact allowed

/-- What holds at a past moment and survives every allowed event holds now. -/
theorem Legal.since (legal : Legal allows log) (holds : List E → Prop) (past : earlier <+: log)
    (initially : holds earlier)
    (kept : ∀ log event, Legal allows log → allows log event → holds log →
      holds (log ++ [event])) : holds log := by
  induction legal with
  | nil =>
      rw [List.prefix_nil.mp past] at initially
      exact initially
  | snoc log event older allowed ih =>
      rcases List.prefix_concat_iff.mp past with whole | inside
      · rw [← whole]
        exact initially
      · exact kept log event older allowed (ih inside)

end Usd8Core.Lib.EventLog
