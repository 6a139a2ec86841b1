import Usd8Core.JobApi.AdvisoryCache
import Usd8Core.Lib.EventLog
import Mathlib.Data.List.Basic

/-!
# What checks do to the advisory object

Each event of a check needs something of the log before it: a reservation comes sixty
seconds after the last one, a scan after the check's own reservation, and a publication
right on top of it.  Everything about the object follows from that.
-/

set_option autoImplicit false

namespace Usd8Core.JobApi

open Usd8Core.Lib.EventLog

variable {β : Type} (serde : RecordSerde β)

/-! ## The stored record -/

@[simp] theorem writesOf_append (log more : CacheLog β) :
    writesOf (log ++ more) = writesOf log ++ writesOf more := by
  simp [writesOf]

@[simp] theorem writesOf_bound (checker : Checker) (binding : Binding) :
    writesOf ([.bound checker binding] : CacheLog β) = [] := rfl

@[simp] theorem writesOf_refreshed (checker : Checker) (result : Option Semantic) :
    writesOf ([.refreshed checker result] : CacheLog β) = [] := rfl

@[simp] theorem writesOf_wrote (write : CacheWrite β) :
    writesOf ([.wrote write] : CacheLog β) = [write] := rfl

/-- The scan of the check gave the result in time, and it is eligible under a binding that
the source gave to the same check. -/
structure Approved (log : CacheLog β) (checker : Checker) (advisory : Advisory)
    (binding : Binding) : Prop where
  scanned : .refreshed checker (some advisory.result) ∈ log
  bound : .bound checker binding ∈ log
  configured : advisory.configuration = binding.commitment
  isEligible : eligible advisory.result binding = true

section Legal

variable {serde} {log : CacheLog β} {before : List (CacheWrite β)} {write : CacheWrite β}

theorem Approved.later {past : CacheLog β} {checker : Checker} {advisory : Advisory}
    {binding : Binding} (approved : Approved past checker advisory binding) (grown : past <+: log) :
    Approved log checker advisory binding :=
  ⟨grown.subset approved.scanned, grown.subset approved.bound, approved.configured,
    approved.isEligible⟩

end Legal

end Usd8Core.JobApi
