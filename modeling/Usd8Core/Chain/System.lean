import Usd8Core.Chain.DefiInsurance
import Usd8Core.Lib.TraceRun
import Usd8Core.Lib.Keccak256

/-!
# The whole system

External accounts call the Registry, the modules and the pools, move their own
tokens, deploy further modules and pools, and blocks are mined in between.  A
deployed module or pool never sends a transaction of its own.
-/

set_option autoImplicit false

namespace Usd8Core.Chain

open Usd8Core.Lib.ByteWords
open Usd8Core.Lib.CheckedCall
open Usd8Core.Lib.TraceRun

inductive Tx where
  | registry (sender : Address) (call : RegistryCall)
  | module (m sender : Address) (call : ModuleCall)
  | pool (p sender : Address) (call : PoolCall)
  | erc20Transfer (token sender recipient : Address) (amount : Nat)
  | erc20Mint (token recipient : Address) (amount : Nat)
  | erc20Burn (token holder : Address) (amount : Nat)
  | erc1155Transfer (collection : Address) (id : Nat) (sender recipient : Address) (amount : Nat)
  | erc1155Mint (collection : Address) (id : Nat) (recipient : Address) (amount : Nat)
  | erc1155Burn (collection : Address) (id : Nat) (holder : Address) (amount : Nat)
  | deployModule (m : Address)
  | deployPool (p asset : Address)
  | mine (block : Block)

namespace World

def registryEnv (w : World) (sender : Address) : RegistryEnv where
  sender := sender
  blockNumber := w.block.number
  payoutIncidentActive := w.payoutIncidentActive
  activeIncidentId := fun m => (w.modules m).map fun mod => mod.activeIncidentId w.now
  poolAsset := fun p => (w.pools p).map SingleAssetCoverPool.asset

/-- An account that is neither a deployed module nor a deployed pool. -/
def IsExternal (w : World) (account : Address) : Prop :=
  account ≠ Address.zero ∧ (w.modules account).isNone ∧ (w.pools account).isNone

instance (w : World) (account : Address) : Decidable (w.IsExternal account) := by
  unfold IsExternal
  infer_instance

def requireExternal (w : World) (account : Address) : Call Unit :=
  revertIf (¬ w.IsExternal account) (.callerIsContract account)

def callRegistry (w : World) (sender : Address) (call : RegistryCall) : Call World := do
  let registry ← Registry.exec (w.registryEnv sender) w.registry call
  pure { w with registry := registry }

/-- A proxy initialised as an insurance module at a fresh address. -/
def deployModule (w : World) (m : Address) : Call World := do
  w.requireExternal m
  pure (w.setModule m DefiInsurance.initial)

/-- A proxy initialised as a cover pool at a fresh address. -/
def deployPool (w : World) (p asset : Address) : Call World := do
  w.requireExternal p
  revertIf (asset = Address.zero) .zeroAddress
  revertIf (w.registry.usd8 = Address.zero) .zeroAddress
  pure { w with
    pools := Function.update w.pools p
      (some (SingleAssetCoverPool.initial asset w.registry.usd8)) }

/-- The chain moves on: a later block that is not earlier in time. -/
def mine (w : World) (block : Block) : Call World := do
  revertIf (block.number ≤ w.block.number ∨ block.timestamp < w.block.timestamp) .abiDecode
  pure { w with block := block }

def mintErc20 (w : World) (token recipient : Address) (amount : Nat) : World :=
  { w with
    erc20 := Function.update w.erc20 token
      (Function.update (w.erc20 token) recipient (w.erc20 token recipient + amount)) }

def burnErc20 (w : World) (token holder : Address) (amount : Nat) : Call World := do
  revertIf (w.erc20 token holder < amount) (.erc20InsufficientBalance token holder)
  pure { w with
    erc20 := Function.update w.erc20 token
      (Function.update (w.erc20 token) holder (w.erc20 token holder - amount)) }

def transferErc1155 (w : World) (collection : Address) (id : Nat) (sender recipient : Address)
    (amount : Nat) : Call World := do
  let erc1155 ← erc1155Transfer w.erc1155 collection id sender recipient amount
  pure { w with erc1155 := erc1155 }

def mintErc1155 (w : World) (collection : Address) (id : Nat) (recipient : Address)
    (amount : Nat) : World :=
  { w with
    erc1155 := Function.update w.erc1155 collection (Function.update (w.erc1155 collection) id
      (Function.update (w.erc1155 collection id) recipient
        (w.erc1155 collection id recipient + amount))) }

def burnErc1155 (w : World) (collection : Address) (id : Nat) (holder : Address)
    (amount : Nat) : Call World := do
  let erc1155 ← erc1155Burn w.erc1155 collection id holder amount
  pure { w with erc1155 := erc1155 }

/-- Nothing deployed yet but the Registry; the tokens have arbitrary holders. -/
def genesis (block : Block) (timelock admin : Address) (erc20 : Erc20) (erc1155 : Erc1155) :
    World where
  block := block
  registry := Registry.initial timelock admin
  modules := fun _ => none
  pools := fun _ => none
  erc20 := erc20
  erc1155 := erc1155
  logs := []

end World

/-- One transaction, or the mining of a block. -/
def step (platform : Platform) (w : World) : Tx → Call World
  | .registry sender call => do
      w.requireExternal sender
      w.callRegistry sender call
  | .module m sender call => do
      w.requireExternal sender
      w.callModule platform m sender call
  | .pool p sender call => do
      w.requireExternal sender
      w.callPool p sender call
  | .erc20Transfer token sender recipient amount => do
      w.requireExternal sender
      w.transferErc20 token sender recipient amount
  | .erc20Mint token recipient amount => pure (w.mintErc20 token recipient amount)
  | .erc20Burn token holder amount => do
      w.requireExternal holder
      w.burnErc20 token holder amount
  | .erc1155Transfer collection id sender recipient amount => do
      w.requireExternal sender
      w.transferErc1155 collection id sender recipient amount
  | .erc1155Mint collection id recipient amount =>
      pure (w.mintErc1155 collection id recipient amount)
  | .erc1155Burn collection id holder amount => do
      w.requireExternal holder
      w.burnErc1155 collection id holder amount
  | .deployModule m => w.deployModule m
  | .deployPool p asset => w.deployPool p asset
  | .mine block => w.mine block

/-- A run of the system from a fresh Registry. -/
def SystemRun (platform : Platform) (steps : List (Transition World Tx)) (w : World) : Prop :=
  ∃ block timelock admin erc20 erc1155,
    IsRun (step platform) (World.genesis block timelock admin erc20 erc1155) steps w

def Reachable (platform : Platform) (w : World) : Prop :=
  ∃ steps, SystemRun platform steps w

section Runs

variable {platform : Platform}

/-- The induction rule of the development: an invariant of genesis and of every
step holds in every reachable world. -/
theorem Reachable.invariant (holds : World → Prop)
    (initially : ∀ block timelock admin erc20 erc1155,
      holds (World.genesis block timelock admin erc20 erc1155))
    (kept : ∀ w tx next, holds w → step platform w tx = .ok next → holds next)
    {w : World} (reachable : Reachable platform w) : holds w := by
  obtain ⟨steps, block, timelock, admin, erc20, erc1155, run⟩ := reachable
  exact run.invariant holds (initially block timelock admin erc20 erc1155) kept

theorem SystemRun.reachable {steps : List (Transition World Tx)} {w : World}
    (run : SystemRun platform steps w) : Reachable platform w := ⟨steps, run⟩

theorem Reachable.extend {w next : World} {steps : List (Transition World Tx)}
    (reachable : Reachable platform w) (run : IsRun (step platform) w steps next) :
    Reachable platform next := by
  obtain ⟨earlier, block, timelock, admin, erc20, erc1155, start⟩ := reachable
  exact ⟨earlier ++ steps, block, timelock, admin, erc20, erc1155, start.append run⟩

theorem Reachable.step {w next : World} {tx : Tx} (reachable : Reachable platform w)
    (ran : step platform w tx = .ok next) : Reachable platform next :=
  reachable.extend (.single ran)

/-- The states around a transition of a run. -/
theorem SystemRun.split_at {before later : List (Transition World Tx)}
    {t : Transition World Tx} {w : World}
    (run : SystemRun platform (before ++ t :: later) w) :
    SystemRun platform before t.before ∧ Chain.step platform t.before t.action = .ok t.after ∧
      IsRun (Chain.step platform) t.after later w := by
  obtain ⟨block, timelock, admin, erc20, erc1155, run⟩ := run
  obtain ⟨first, ran, second⟩ := run.split_at
  exact ⟨⟨block, timelock, admin, erc20, erc1155, first⟩, ran, second⟩

end Runs

/-! ## A small deployment

One pool and one module with two claimants, driven by concrete transactions.  The
hash is Keccak-256; signature recovery answers for the one signature of the run,
made by `signer` over the settlement digest. -/

namespace SmallDeployment

def timelock : Address := Address.ofNat 1
def admin : Address := Address.ofNat 2
def usd8 : Address := Address.ofNat 10
def asset : Address := Address.ofNat 11
def insuredToken : Address := Address.ofNat 12
def boosters : Address := Address.ofNat 13
def pool : Address := Address.ofNat 20
def module : Address := Address.ofNat 30
def oracle : Address := Address.ofNat 40
def treasury : Address := Address.ofNat 50
def alice : Address := Address.ofNat 100
def bob : Address := Address.ofNat 101
def signer : Address := Address.ofNat 0x7E5F4552091A69125d5DfCb7b8C2659029395Bdf

def root : Hash :=
  Hash.ofNat 0x40bbe1adebb01e17b0a40efd2c74e760beb615ea544a132edfa78286d42df54c

def digest : Hash :=
  Hash.ofNat 0x9b7cc1b5ef6e91296668956c3f8ffcdda9fadca664db9c9e8e7573759604d46b

def signature : List Byte :=
  wordBytes 0x3c907735fd8f3ca6c73df61ab2164a18ade3fb6b3c23166c7fabe9da1aebbf01 ++
    wordBytes 0x636243f53d0d3f4398a42a4ebd824b8d6f03e486d05dfabe27c75b7295fef5c9 ++ [28]

def platform : Platform where
  keccak256 := Lib.Keccak256.keccak256
  ecdsaRecover := fun hash text => if hash = digest ∧ text = signature then some signer else none
  chainId := 1
  registryAddress := Address.ofNat 60

/-- The block of a number and a timestamp that fit. -/
def blockAt (number timestamp : Nat) : Block :=
  ⟨number % uintBound 64, timestamp % uintBound 64, Nat.mod_lt _ (uintBound_pos 64),
    Nat.mod_lt _ (uintBound_pos 64)⟩

def start : World :=
  World.genesis ⟨1000, 1000000, by decide, by decide⟩ timelock admin (fun _ _ => 0)
    (fun _ _ _ => 0)

/-- Two stakers, a reward stream and two exit requests. -/
def stake : List Tx :=
  [.registry timelock (.setUsd8 usd8), .deployPool pool asset,
    .erc20Mint asset alice 1000, .erc20Mint asset bob 1000, .erc20Mint usd8 alice 604800,
    .pool pool alice (.deposit 600 alice), .pool pool bob (.deposit 400 bob),
    .pool pool alice (.receiveProfitDistribution 604800),
    .pool pool alice (.requestRedeem 100000),
    .mine ⟨1001, 1300000, by decide, by decide⟩, .pool pool bob (.requestRedeem 50000)]

/-- The first exit epoch matures, is settled and paid. -/
def exit : List Tx :=
  [.mine ⟨1002, 1814400, by decide, by decide⟩,
    .pool pool bob (.settleMaturedExitEpochs 5), .pool pool alice (.completeRedeem alice)]

/-- An incident with two claims, up to the end of its claim window. -/
def claim : List Tx :=
  [.registry timelock (.setTreasury treasury),
    .registry timelock (.setBoosterConfig boosters 7 500),
    .registry timelock (.addPool pool oracle ⟨1, some 8, some ⟨1, 100, 1, 1⟩⟩),
    .deployModule module, .registry timelock (.setDefiInsurance module),
    .module module timelock (.setTeeSigner signer true),
    .module module timelock (.editInsuredToken insuredToken ⟨8000, oracle, Address.zero, []⟩),
    .erc20Mint insuredToken alice 500, .erc20Mint insuredToken bob 500,
    .erc20Mint usd8 alice (10 * 10 ^ 18), .erc20Mint usd8 bob (10 * 10 ^ 18),
    .erc1155Mint boosters 7 alice 3,
    .module module admin (.openClaimIncident insuredToken 1000),
    .module module alice (.fileClaim insuredToken 400 90 2 0 []),
    .module module bob (.fileClaim insuredToken 300 70 0 0 []),
    .mine ⟨1002, 1600000, by decide, by decide⟩]

/-- The settlement of both claims is signed and committed, and its review is over. -/
def settle : List Tx :=
  [.module module bob (.settleIncident root [498] signature),
    .mine ⟨1003, 1900000, by decide, by decide⟩]

/-- What the settlement gives alice, with her proof. -/
def aliceRow : PayoutRow := ⟨[234], 90, 99, 400, 2⟩

def aliceProof : List Hash :=
  [Hash.ofNat 0xebd3e360fb674adf78afffb1612af23c59ba3ec5d0ce94009992c11127b99ebd]

def payout : List Tx := [.module module alice (.finalizeClaim 1 true aliceRow aliceProof)]

/-- The actions run from the start to a world that passes the check. -/
theorem reaches (actions : List Tx) (check : World → Bool)
    (passed : endsIn (step platform) start actions (fun _ w => check w) = true) :
    ∃ steps w, SystemRun platform steps w ∧ check w = true := by
  obtain ⟨steps, w, run, checked⟩ := endsIn_isRun actions _ passed
  exact ⟨steps, w, ⟨_, _, _, _, _, run⟩, checked⟩

end SmallDeployment

end Usd8Core.Chain
