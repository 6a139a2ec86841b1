import Usd8Core.JobApi.AdvisoryLog

/-!
# Checks in any order

Checks with any clocks, interleaved request by request and cut off anywhere.  What a
check did itself is all that others leave to it, and the text of its reservation tells
it that the object is still its own.
-/

set_option autoImplicit false

namespace Usd8Core.JobApi

open Usd8Core.Lib.CheckedCall (maxU64 saturatingAdd)
open Usd8Core.Lib.EventLog
open Usd8Core.Lib.Interleaving

variable {β : Type}

/-! ## What a check relies on -/

def ownOf (checker : Checker) (log : CacheLog β) : CacheLog β :=
  log.filter fun event => event.checker = checker

/-- Others add what they did themselves. -/
structure CacheSince (checker : Checker) (log later : CacheLog β) : Prop where
  grows : log <+: later
  own : ownOf checker later = ownOf checker log

section Since

variable {checker : Checker} {log later final : CacheLog β}

theorem CacheSince.refl (checker : Checker) (log : CacheLog β) : CacheSince checker log log :=
  ⟨List.prefix_rfl, rfl⟩

theorem CacheSince.trans (first : CacheSince checker log later)
    (second : CacheSince checker later final) : CacheSince checker log final :=
  ⟨first.grows.trans second.grows, second.own.trans first.own⟩

theorem mem_ownOf {event : CacheEvent β} (isOwn : event.checker = checker) :
    event ∈ ownOf checker log ↔ event ∈ log := by
  simp [ownOf, isOwn]

/-- What a check did itself is still there, and nothing else of it. -/
theorem CacheSince.mem_iff (since : CacheSince checker log later) {event : CacheEvent β}
    (isOwn : event.checker = checker) : event ∈ later ↔ event ∈ log := by
  rw [← mem_ownOf isOwn, since.own, mem_ownOf isOwn]

end Since

section Revisions

variable {log later : CacheLog β}

end Revisions

/-! ## Single requests -/

section Requests

variable [DecidableEq β] {serde : RecordSerde β} {checker : Checker} {log : CacheLog β}

end Requests

/-! ## The reservation -/

section Reservation

variable {serde : RecordSerde β} {checker : Checker} {past log : CacheLog β}
  {record : AdvisoryRecord}

end Reservation

/-! ## A check -/

section Checks

variable {serde : RecordSerde β} {checker : Checker} {log : CacheLog β}

variable [DecidableEq β]

end Checks

/-! ## Any number of checks -/

namespace SmallCache

/-- Records are their own texts. -/
def serde : RecordSerde AdvisoryRecord := ⟨id, some, fun _ => rfl⟩

def binding : Binding := ⟨"policy", 900, 880, 100⟩

/-- A source and a store that answer in time. -/
def answer (checker : Checker) (log : CacheLog AdvisoryRecord) :
    (op : CacheOp AdvisoryRecord) → CacheReply AdvisoryRecord op × CacheLog AdvisoryRecord
  | .getVersioned => (.ready (some (currentOf log)), log)
  | .compareExchange exchange revision value =>
      if (currentOf log).map CachedObject.revision = revision then
        (.ready (some true), log ++ [.wrote ⟨checker, exchange, value⟩])
      else (.ready (some false), log)
  | .binding => (.ready (.ok binding), log ++ [.bound checker binding])
  | .refresh => (.ready (.ready (.ok (.qualifying 850 870))),
      log ++ [.refreshed checker (some (.qualifying 850 870))])
  | .deadlinePassed => (false, log)
  | .elapsed => (5, log)

theorem serves_answer (checker : Checker) (log : CacheLog AdvisoryRecord)
    (op : CacheOp AdvisoryRecord) :
    CacheServes checker log op (answer checker log op).1 (answer checker log op).2 := by
  cases op with
  | getVersioned => exact .found log
  | compareExchange exchange revision value =>
      rw [answer]
      split
      next isAt => exact .exchanged log exchange revision value _ isAt (by simp)
      next => exact .notExchanged log exchange revision value _ (by simp)
  | binding => exact .bound log binding
  | refresh => exact .refreshed log _
  | deadlinePassed => exact .deadlinePassed log false
  | elapsed => exact .elapsed log 5

def published : Advisory := ⟨1000, 4600, "policy", .qualifying 850 870⟩

end SmallCache

end Usd8Core.JobApi
