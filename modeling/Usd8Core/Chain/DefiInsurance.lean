import Usd8Core.Chain.RegistryCalls
import Usd8Core.Chain.Commitments

/-!
# DefiInsurance

The claim lifecycle of `DefiInsurance.sol` on the whole world: a call reads the
Registry, moves tokens, calls pools and writes the module's own storage.
`fileClaim` and `finalizeClaim` are cut at the points the source marks with
blocks, so that the state in which a payout starts has a name.
-/

set_option autoImplicit false

namespace Usd8Core.Chain

open Usd8Core.Lib.ByteWords
open Usd8Core.Lib.CheckedCall

/-- Whether a row entitles its claimant to the bond and the payout. -/
def PayoutRow.eligible (row : PayoutRow) : Bool :=
  decide (row.eligibleAmount ≠ 0) && decide (row.scoreSpent ≠ 0)

namespace DefiInsurance

/-- `_activeIncidentId`: derived from the last-opened id and the current phase. -/
def activeIncidentId (mod : DefiInsurance) (now : Nat) : Nat :=
  let id := mod.nextIncidentId - 1
  if id = 0 then 0
  else if now ≤ (mod.incidents id).phaseDeadline then id
  else if (mod.incidents id).unresolvedClaims = 0 then 0
  else if now ≤ (mod.incidents id).phaseDeadline + mod.incidentPhaseWindow id then id
  else 0

def setIncident (mod : DefiInsurance) (id : Nat) (incident : Incident) : DefiInsurance :=
  { mod with incidents := Function.update mod.incidents id incident }

def setClaim (mod : DefiInsurance) (id : Nat) (claim : Claim) : DefiInsurance :=
  { mod with claims := Function.update mod.claims id claim }

/-- `_delistInsuredToken` on the storage; the event is emitted by the caller. -/
def delistInsuredToken (mod : DefiInsurance) (token : Address) : DefiInsurance :=
  { mod with
    insuredTokens := Function.update mod.insuredTokens token
      { mod.insuredTokens token with maxCoverageBps := 0 } }

end DefiInsurance

namespace World

/-- `Registry.payoutIncidentActive`; only a deployed module is ever registered. -/
def payoutIncidentActive (w : World) : Bool :=
  if w.registry.defiInsurance = Address.zero then false
  else
    match w.modules w.registry.defiInsurance with
    | none => false
    | some mod => decide (mod.activeIncidentId w.now ≠ 0)

def poolEnv (w : World) (p sender : Address) : PoolEnv :=
  ⟨p, sender, w.now, w.registry, w.payoutIncidentActive⟩

/-- A call to the pool at `p`. -/
def callPool (w : World) (p sender : Address) (call : PoolCall) : Call World := do
  let pool ← w.getPool p
  let tx ← PoolTx.exec (w.poolEnv p sender) ⟨pool, w.erc20, []⟩ call
  pure ({ w with
    pools := Function.update w.pools p (some tx.pool)
    erc20 := tx.erc20 }.emitAll p tx.events)

def transferErc20 (w : World) (token sender recipient : Address) (amount : Nat) :
    Call World := do
  let erc20 ← erc20Transfer w.erc20 token sender recipient amount
  pure { w with erc20 := erc20 }

def requireRegistered (w : World) (m : Address) : Call Unit :=
  revertIf (w.registry.defiInsurance ≠ m) .defiInsuranceNotRegistered

/-! ## Settings -/

def setClaimBondAmount (w : World) (m sender : Address) (amount : Nat) : Call World := do
  requireTimelock w.registry sender
  let mod ← w.getModule m
  pure (w.setModule m { mod with claimBondAmount := amount })

def setSettlementParams (w : World) (m sender : Address) (params : SettlementParams) :
    Call World := do
  requireTimelock w.registry sender
  let mod ← w.getModule m
  revertIf (mod.activeIncidentId w.now ≠ 0) .incidentsActive
  revertIf (params.sampleStepBlocks = 0) .invalidSettlementParams
  pure (w.setModule m { mod with settlementParams := params })

def setTeeSigner (w : World) (m sender signer : Address) (authorized : Bool) : Call World := do
  requireTimelock w.registry sender
  let mod ← w.getModule m
  revertIf (mod.activeIncidentId w.now ≠ 0) .incidentsActive
  revertIf (signer = Address.zero) .zeroAddress
  pure (w.setModule m
    { mod with isTeeSigner := Function.update mod.isTeeSigner signer authorized })

/-- `_delistInsuredToken`: no effect on a token that is not listed. -/
def delist (w : World) (m : Address) (mod : DefiInsurance) (token : Address) : World :=
  if (mod.insuredTokens token).maxCoverageBps = 0 then w.setModule m mod
  else (w.setModule m (mod.delistInsuredToken token)).emit m (.insuredTokenRemoved token)

def editInsuredToken (w : World) (m sender token : Address) (recipe : InsuredToken) :
    Call World := do
  requireTimelock w.registry sender
  let mod ← w.getModule m
  revertIf (token = Address.zero) .zeroAddress
  if recipe.maxCoverageBps = 0 then do
    revertIf ((mod.insuredTokens token).maxCoverageBps = 0) (.insuredTokenNotApproved token)
    revertIf (mod.activeIncidentId w.now ≠ 0) .incidentsActive
    pure (w.delist m mod token)
  else do
    revertIf (recipe.underlyingPriceOracle = Address.zero) .zeroAddress
    revertIf (recipe.maxCoverageBps > maxClaimantCoverageBps)
      (.invalidMaxCoverageBps recipe.maxCoverageBps maxClaimantCoverageBps)
    revertIf ((mod.insuredTokens token).maxCoverageBps ≠ 0 ∧ mod.activeIncidentId w.now ≠ 0)
      .incidentsActive
    pure (w.setModule m
      { mod with insuredTokens := Function.update mod.insuredTokens token recipe })

/-- `_sweepable` of the module: the balance above live escrow. -/
def moduleSweepable (w : World) (m : Address) (mod : DefiInsurance) (token : Address) :
    Call Nat := do
  let accounted ← (if token = w.registry.usd8 then
    checkedAdd 256 (mod.escrowedInsuredTokens token) mod.escrowedClaimBonds
    else pure (mod.escrowedInsuredTokens token))
  pure (w.erc20 token m - accounted)

def sweepModuleToken (w : World) (m sender token recipient : Address) : Call World := do
  requireAdminOrTimelock w.registry sender
  let mod ← w.getModule m
  revertIf (recipient = Address.zero) .zeroAddress
  revertIf (recipient = m) (.invalidSweepRecipient recipient)
  let amount ← w.moduleSweepable m mod token
  revertIf (amount = 0) (.nothingToSweep token)
  let w ← w.transferErc20 token m recipient amount
  pure (w.emit m (.tokenSwept token recipient amount))

/-! ## Opening and filing -/

/-- The storage after an incident was recorded under the next id. -/
def openedModule (mod : DefiInsurance) (token : Address) (block : Block) (registry : Registry)
    (referenceBlock claimDeadline : Nat) (teePcrHash : Hash) : DefiInsurance :=
  { mod with
    nextIncidentId := mod.nextIncidentId + 1
    incidentPhaseWindow := Function.update mod.incidentPhaseWindow mod.nextIncidentId
      registry.incidentTimingConfig.phaseWindow
    incidents := Function.update mod.incidents mod.nextIncidentId
      { mod.incidents mod.nextIncidentId with
        insuredToken := token
        referenceBlock := referenceBlock
        openBlock := truncate 64 block.number
        phaseDeadline := claimDeadline
        protocolFeeShareBps := registry.protocolFeeConfig.claimProtocolFeeShareBps
        pools := registry.coverPools
        teePcrHash := teePcrHash } }

/-- Settle every matured exit of the pools that will back the incident. -/
def settleListedPools (w : World) (m : Address) : Call World :=
  w.registry.coverPools.foldlM
    (fun world p => world.callPool p m (.settleMaturedExitEpochs (uintBound 256 - 1))) w

def openIncident (w : World) (m token : Address) (referenceBlock : Nat) (teePcrHash : Hash) :
    Call World := do
  requireNotPaused w.registry m
  let mod ← w.getModule m
  revertIf ((mod.insuredTokens token).maxCoverageBps = 0) (.insuredTokenNotApproved token)
  revertIf (mod.activeIncidentId w.now ≠ 0) .incidentsActive
  w.requireRegistered m
  let timing := w.registry.incidentTimingConfig
  revertIf (referenceBlock = 0 ∨ referenceBlock ≥ w.block.number ∨
      w.block.number - referenceBlock > timing.maxReferenceBlockAge)
    (.invalidReferenceBlock referenceBlock)
  let w ← w.settleListedPools m
  let mod ← w.getModule m
  let _ ← checkedAdd 64 mod.nextIncidentId 1
  let claimDeadline ← checkedAdd 64 (truncate 64 w.now) timing.phaseWindow
  pure ((w.setModule m (openedModule mod token w.block w.registry referenceBlock claimDeadline
      teePcrHash)).emit m
    (.incidentOpened mod.nextIncidentId token claimDeadline
      w.registry.protocolFeeConfig.claimProtocolFeeShareBps))

def openClaimIncident (w : World) (m sender token : Address) (referenceBlock : Nat) :
    Call World := do
  requireAdminOrTimelock w.registry sender
  w.openIncident m token referenceBlock w.registry.teePcrHash

/-- The join branch of `fileClaim`: the checks against the active incident. -/
def checkJoin (w : World) (mod : DefiInsurance) (incidentId : Nat) (sender token : Address)
    (referenceBlock : Nat) (signature : List Byte) : Call Unit := do
  revertIf (referenceBlock ≠ 0 ∨ signature.length ≠ 0) .unexpectedOpenAttestation
  let cur := mod.incidents incidentId
  revertIf (cur.root ≠ Hash.zero) (.incidentFinalizing incidentId)
  revertIf (cur.insuredToken ≠ token)
    (.incidentTokenMismatch incidentId cur.insuredToken token)
  revertIf (w.now > cur.phaseDeadline) (.claimWindowClosed token cur.phaseDeadline)
  revertIf (mod.claimIdByIncidentAndUser incidentId sender ≠ 0) (.duplicateClaim incidentId)

/-- The first half of `fileClaim`: find or open the incident the claim joins. -/
def claimIncident (platform : Platform) (w : World) (m sender token : Address)
    (referenceBlock : Nat) (signature : List Byte) : Call (World × Nat) := do
  let mod ← w.getModule m
  let active := mod.activeIncidentId w.now
  if active = 0 then do
    revertIf (signature.length ≠ 65) (.ecdsaInvalidSignatureLength signature.length)
    let incidentId := mod.nextIncidentId
    let teePcrHash := w.registry.teePcrHash
    let recovered ← orRevert (platform.ecdsaRecover
      (incidentOpenDigest platform m w.registry (mod.insuredTokens token) token referenceBlock
        incidentId teePcrHash) signature) .ecdsaInvalidSignature
    revertIf (mod.isTeeSigner recovered = false) (.unauthorizedOpenSigner recovered)
    let w ← w.openIncident m token referenceBlock teePcrHash
    pure (w, incidentId)
  else do
    w.checkJoin mod active sender token referenceBlock signature
    pure (w, active)

/-- `_pullToken`: the balance delta of a transfer into the module. -/
def pullToken (w : World) (m sender token : Address) (amount : Nat) : Call (World × Nat) := do
  let before := w.erc20 token m
  let w ← w.transferErc20 token sender m amount
  let received ← checkedSub (w.erc20 token m) before
  pure (w, received)

/-- Transfer booster units into escrow; no call when there are none. -/
def pullBoosters (w : World) (m sender : Address) (boosterAmount : Nat) : Call World :=
  if boosterAmount ≠ 0 then do
    let config := w.registry.boosterConfig
    let erc1155 ← erc1155Transfer w.erc1155 config.collection config.tokenId sender m
      boosterAmount
    pure { w with erc1155 := erc1155 }
  else pure w

/-- The claim record and counters written by `fileClaim`. -/
def registeredModule (platform : Platform) (mod : DefiInsurance) (incidentId : Nat)
    (sender token : Address) (escrow bondAmount scoreToSpend boosterAmount : Nat) :
    DefiInsurance :=
  let claimId := mod.nextClaimId
  let inc := mod.incidents incidentId
  { mod with
    escrowedInsuredTokens := Function.update mod.escrowedInsuredTokens token
      (mod.escrowedInsuredTokens token + escrow)
    escrowedClaimBonds := mod.escrowedClaimBonds + bondAmount
    nextClaimId := claimId + 1
    claimIdByIncidentAndUser := Function.update mod.claimIdByIncidentAndUser incidentId
      (Function.update (mod.claimIdByIncidentAndUser incidentId) sender claimId)
    claims := Function.update mod.claims claimId
      ⟨sender, incidentId, escrow, boosterAmount, bondAmount, false⟩
    incidents := Function.update mod.incidents incidentId
      { inc with
        unresolvedClaims := inc.unresolvedClaims + 1
        claimSetHash := claimJoinHash platform inc.claimSetHash claimId sender escrow
          scoreToSpend boosterAmount } }

/-- The second half of `fileClaim`: pull the escrow and record the claim. -/
def registerClaim (platform : Platform) (w : World) (m sender token : Address)
    (insuredTokenAmount scoreToSpend boosterAmount incidentId : Nat) : Call World := do
  let mod ← w.getModule m
  let bondAmount := mod.claimBondAmount
  let (w, received) ← w.pullToken m sender token insuredTokenAmount
  let escrow ← safeCast 128 received
  revertIf (escrow = 0) .zeroAmount
  let _ ← checkedAdd 256 (mod.escrowedInsuredTokens token) escrow
  let w ← w.transferErc20 w.registry.usd8 sender m bondAmount
  let _ ← checkedAdd 256 mod.escrowedClaimBonds bondAmount
  let _ ← checkedAdd 64 mod.nextClaimId 1
  let _ ← safeCast 64 incidentId
  let _ ← safeCast 128 boosterAmount
  let w ← w.pullBoosters m sender boosterAmount
  let _ ← checkedAdd 256 (mod.incidents incidentId).unresolvedClaims 1
  pure ((w.setModule m (registeredModule platform mod incidentId sender token escrow bondAmount
      scoreToSpend boosterAmount)).emit m
    (.claimRegistered mod.nextClaimId incidentId sender escrow scoreToSpend boosterAmount))

def fileClaim (platform : Platform) (w : World) (m sender token : Address)
    (insuredTokenAmount scoreToSpend boosterAmount referenceBlock : Nat)
    (signature : List Byte) : Call World := do
  requireNotPaused w.registry m
  w.requireRegistered m
  revertIf (insuredTokenAmount = 0) .zeroAmount
  let (w, incidentId) ← claimIncident platform w m sender token referenceBlock signature
  registerClaim platform w m sender token insuredTokenAmount scoreToSpend boosterAmount incidentId

/-! ## Releasing escrow -/

/-- `_resolveBoosters`: burn the accepted quantity and return the rest. -/
def resolveBoosters (w : World) (m : Address) (claim : Claim) (recipient : Address)
    (burnAmount : Nat) : Call World :=
  if claim.boosterAmount ≠ 0 then do
    let config := w.registry.boosterConfig
    let burnt ← (if burnAmount ≠ 0 then
      erc1155Burn w.erc1155 config.collection config.tokenId m burnAmount
      else pure w.erc1155)
    let returned ← (if claim.boosterAmount > burnAmount then
      erc1155Transfer burnt config.collection config.tokenId m recipient
        (claim.boosterAmount - burnAmount)
      else pure burnt)
    pure { w with erc1155 := returned }
  else pure w

/-- `_resolveClaimBond`. -/
def resolveClaimBond (w : World) (m : Address) (claim : Claim) (recipient : Address) :
    Call World := do
  let w ← w.transferErc20 w.registry.usd8 m recipient claim.bondAmount
  let mod ← w.getModule m
  let bonds ← checkedSub mod.escrowedClaimBonds claim.bondAmount
  pure (w.setModule m { mod with escrowedClaimBonds := bonds })

/-- The full refund shared by `cancelClaim` and `_resolveWithoutSettlement`. -/
def refundClaim (w : World) (m : Address) (claim : Claim) (token recipient : Address) :
    Call World := do
  let w ← w.resolveBoosters m claim recipient 0
  let w ← w.resolveClaimBond m claim recipient
  let w ← w.transferErc20 token m recipient claim.insuredTokenAmount
  let mod ← w.getModule m
  let escrowed ← checkedSub (mod.escrowedInsuredTokens token) claim.insuredTokenAmount
  pure (w.setModule m
    { mod with escrowedInsuredTokens := Function.update mod.escrowedInsuredTokens token escrowed })

/-- The storage `cancelClaim` writes before the refund. -/
def cancelledModule (platform : Platform) (mod : DefiInsurance) (incidentId claimId : Nat)
    (sender : Address) (unresolved : Nat) : DefiInsurance :=
  let inc := mod.incidents incidentId
  { mod with
    claims := Function.update mod.claims claimId { mod.claims claimId with resolved := true }
    incidents := Function.update mod.incidents incidentId
      { inc with
        unresolvedClaims := unresolved
        claimSetHash := claimCancelHash platform inc.claimSetHash claimId }
    claimIdByIncidentAndUser := Function.update mod.claimIdByIncidentAndUser incidentId
      (Function.update (mod.claimIdByIncidentAndUser incidentId) sender 0) }

def cancelClaim (platform : Platform) (w : World) (m sender : Address) : Call World := do
  let mod ← w.getModule m
  let incidentId := mod.activeIncidentId w.now
  let claimId := mod.claimIdByIncidentAndUser incidentId sender
  revertIf (claimId = 0) .noActiveClaim
  let inc := mod.incidents incidentId
  revertIf (inc.root ≠ Hash.zero) (.incidentFinalizing incidentId)
  revertIf (w.now > inc.phaseDeadline) (.claimWindowClosed inc.insuredToken inc.phaseDeadline)
  let claim := mod.claims claimId
  revertIf (claim.resolved = true) (.claimAlreadyResolved claimId)
  let unresolved ← checkedSub inc.unresolvedClaims 1
  let w ← (w.setModule m
    (cancelledModule platform mod incidentId claimId sender unresolved)).refundClaim m claim
      inc.insuredToken sender
  pure (w.emit m (.claimCancelled claimId sender))

/-! ## Settlement -/

/-- The loop of `_commitRoot`: no budget above its pool's cap. -/
def checkPayoutCaps (w : World) : Nat → List Address → List Nat → Call Unit
  | i, p :: pools, payout :: payouts => do
      let pool ← w.getPool p
      let cap ← pool.maxPayoutPerIncident w.registry
      revertIf (payout > cap) (.payoutCapExceeded i payout cap)
      w.checkPayoutCaps (i + 1) pools payouts
  | _, _, _ => .ok ()

/-- `_commitRoot`. -/
def commitRoot (w : World) (m : Address) (mod : DefiInsurance) (incidentId : Nat) (root : Hash)
    (poolPayouts : List Nat) : Call World := do
  let inc := mod.incidents incidentId
  revertIf (poolPayouts.length ≠ inc.pools.length)
    (.settlementPoolMismatch poolPayouts.length inc.pools.length)
  w.checkPayoutCaps 0 inc.pools poolPayouts
  let deadline ← (if w.registry.betaMode = true then
    checkedAdd 64 (truncate 64 w.now) (mod.incidentPhaseWindow incidentId)
    else pure (truncate 64 w.now))
  pure (w.delist m (mod.setIncident incidentId
    { inc with poolBudget := poolPayouts, root := root, phaseDeadline := deadline })
    inc.insuredToken)

def settleIncident (platform : Platform) (w : World) (m : Address) (root : Hash)
    (poolPayouts : List Nat) (signature : List Byte) : Call World := do
  requireNotPaused w.registry m
  w.requireRegistered m
  let mod ← w.getModule m
  let incidentId := mod.activeIncidentId w.now
  revertIf (incidentId = 0) (.notActiveIncident 0)
  let inc := mod.incidents incidentId
  revertIf (root = Hash.zero) (.noStandingRoot incidentId)
  revertIf (inc.root ≠ Hash.zero) (.alreadySettled incidentId)
  revertIf (w.now ≤ inc.phaseDeadline ∨
      w.now > inc.phaseDeadline + mod.incidentPhaseWindow incidentId)
    (.outsideSettlementPhase incidentId)
  let recovered ← orRevert (platform.ecdsaRecover
    (settlementDigest platform m incidentId inc root poolPayouts) signature)
    .ecdsaInvalidSignature
  revertIf (mod.isTeeSigner recovered = false) (.unauthorizedSettlementSigner recovered)
  let w ← w.commitRoot m mod incidentId root poolPayouts
  pure (w.emit m (.incidentSettled incidentId root inc.teePcrHash))

/-- An incident whose settlement governance has voided. -/
def voidedIncident (inc : Incident) (now : Nat) : Incident :=
  { inc with
    poolBudget := []
    root := Hash.zero
    phaseDeadline := 0
    resolvedAt := truncate 64 now }

def adminCorrectSettlement (w : World) (m sender : Address) (root : Hash)
    (poolPayouts : List Nat) : Call World := do
  requireAdminOrTimelock w.registry sender
  revertIf (w.registry.betaMode = false) .notBetaMode
  w.requireRegistered m
  let mod ← w.getModule m
  let incidentId := mod.activeIncidentId w.now
  revertIf (incidentId = 0) (.notActiveIncident 0)
  let inc := mod.incidents incidentId
  revertIf (inc.root = Hash.zero) (.noStandingRoot incidentId)
  revertIf (w.now > inc.phaseDeadline) (.incidentFinalizing incidentId)
  if root = Hash.zero then do
    revertIf (poolPayouts.length ≠ 0) (.settlementPoolMismatch poolPayouts.length 0)
    pure ((w.setModule m (mod.setIncident incidentId (voidedIncident inc w.now))).emit m
      (.incidentCorrected incidentId root))
  else do
    let w ← w.commitRoot m mod incidentId root poolPayouts
    pure (w.emit m (.incidentCorrected incidentId root))

/-! ## Finalizing a claim -/

/-- One live claim fewer; the incident resolves with its last one. -/
def closedIncident (inc : Incident) (unresolved now : Nat) : Incident :=
  { inc with
    unresolvedClaims := unresolved
    resolvedAt := if unresolved = 0 ∧ inc.resolvedAt = 0 then truncate 64 now else inc.resolvedAt }

/-- `_resolveWithoutSettlement`. -/
def resolveWithoutSettlement (w : World) (m sender : Address) (mod : DefiInsurance)
    (claimId : Nat) : Call World := do
  let claim := mod.claims claimId
  let inc := mod.incidents claim.incidentId
  let unresolved ← checkedSub inc.unresolvedClaims 1
  let resolved := (mod.setClaim claimId { claim with resolved := true }).setIncident
    claim.incidentId (closedIncident inc unresolved w.now)
  let w ← (w.setModule m resolved).refundClaim m claim inc.insuredToken sender
  pure (w.emit m (.claimDeclined claimId sender false))

/-- The branch of `finalizeClaim` for a removed module or a missing root. -/
def recoverClaim (w : World) (m sender : Address) (mod : DefiInsurance) (claimId : Nat)
    (acceptPayout : Bool) : Call World := do
  let claim := mod.claims claimId
  let inc := mod.incidents claim.incidentId
  revertIf (sender ≠ claim.user) (.unauthorizedClaim claimId)
  revertIf (acceptPayout = true ∨ ¬ (w.registry.defiInsurance ≠ m ∨
      w.now > inc.phaseDeadline + mod.incidentPhaseWindow claim.incidentId))
    (.finalizeNotOpen claim.incidentId)
  w.resolveWithoutSettlement m sender mod claimId

/-- `expectedBoostedScore` of a row. -/
def expectedBoostedScore (registry : Registry) (row : PayoutRow) : Call Nat := do
  let boost ← checkedMul 256 row.eligibleBoosterAmount registry.boosterConfig.boostBps
  let factor ← checkedAdd 256 bpsDenominator boost
  mulDiv row.scoreSpent factor bpsDenominator

/-- Accepting a payout is only possible in the window and while unpaused. -/
def checkPayoutWindow (w : World) (m : Address) (mod : DefiInsurance) (incidentId : Nat)
    (acceptPayout : Bool) : Call Unit :=
  if acceptPayout = true then do
    revertIf (w.now > (mod.incidents incidentId).phaseDeadline +
        mod.incidentPhaseWindow incidentId)
      (.finalizeNotOpen incidentId)
    requireNotPaused w.registry m
  else pure ()

/-- The checks of `finalizeClaim` on a proof-backed row, up to the first write. -/
def checkRow (platform : Platform) (w : World) (m sender : Address) (mod : DefiInsurance)
    (claimId : Nat) (acceptPayout : Bool) (row : PayoutRow) (proof : List Hash) : Call Unit := do
  let claim := mod.claims claimId
  let inc := mod.incidents claim.incidentId
  revertIf (w.now ≤ inc.phaseDeadline) (.finalizeNotOpen claim.incidentId)
  w.checkPayoutWindow m mod claim.incidentId acceptPayout
  revertIf (row.amounts.length ≠ inc.pools.length) (.invalidProof claimId)
  revertIf (merkleProofVerify platform proof inc.root
      (settlementLeaf platform claim.incidentId claimId claim.user row) = false)
    (.invalidProof claimId)
  revertIf (row.eligibleBoosterAmount > claim.boosterAmount)
    (.eligibleExceedsEscrow row.eligibleBoosterAmount claim.boosterAmount)
  let expected ← expectedBoostedScore w.registry row
  revertIf (row.boostedScore ≠ expected) (.invalidBoostedScore row.boostedScore expected)
  revertIf (sender ≠ claim.user ∧ (acceptPayout = true ∨ row.eligible = true))
    (.unauthorizedClaim claimId)

/-- The storage written by `finalizeClaim` before any transfer. -/
def releasedModule (mod : DefiInsurance) (claimId escrowed : Nat) : DefiInsurance :=
  let claim := mod.claims claimId
  let token := (mod.incidents claim.incidentId).insuredToken
  { mod.setClaim claimId { claim with resolved := true } with
    escrowedInsuredTokens := Function.update mod.escrowedInsuredTokens token escrowed }

/-- The part of `finalizeClaim` that hands the escrow out; `paid` is
`acceptPayout && eligible`. -/
def releaseClaim (w : World) (m : Address) (mod : DefiInsurance) (claimId : Nat) (paid : Bool)
    (row : PayoutRow) : Call World := do
  let claim := mod.claims claimId
  let token := (mod.incidents claim.incidentId).insuredToken
  revertIf (row.eligibleAmount > claim.insuredTokenAmount)
    (.eligibleExceedsEscrow row.eligibleAmount claim.insuredTokenAmount)
  let escrowed ← checkedSub (mod.escrowedInsuredTokens token) claim.insuredTokenAmount
  let w := w.setModule m (releasedModule mod claimId escrowed)
  let refund := if paid = true then claim.insuredTokenAmount - row.eligibleAmount
    else claim.insuredTokenAmount
  let w ← (if refund ≠ 0 then w.transferErc20 token m claim.user refund else pure w)
  let w ← w.resolveBoosters m claim claim.user
    (if paid = true then row.eligibleBoosterAmount else 0)
  w.resolveClaimBond m claim (if row.eligible = true then claim.user else w.registry.treasury)

/-- The second draw of an iteration: the protocol's share, when there is one. -/
def payProtocolFee (w : World) (m : Address) (incidentId : Nat) (pool feeReceiver : Address)
    (protocolFee : Nat) : Call World :=
  if protocolFee ≠ 0 then do
    let w ← w.callPool pool m (.payClaim feeReceiver protocolFee)
    pure (w.emit m (.protocolFeePaid incidentId pool feeReceiver protocolFee))
  else pure w

/-- One iteration of `_payClaimAmounts`. -/
def payClaimAmount (m : Address) (incidentId : Nat) (claimant feeReceiver : Address)
    (amounts : List Nat) (w : World) (i : Nat) : Call World := do
  let amount ← orRevert amounts[i]? (.panic .indexOutOfBounds)
  if amount = 0 then pure w
  else do
    let mod ← w.getModule m
    let inc := mod.incidents incidentId
    let net ← checkedSub bpsDenominator inc.protocolFeeShareBps
    let grossAmount ← mulDiv amount bpsDenominator net
    let remaining ← orRevert inc.poolBudget[i]? (.panic .indexOutOfBounds)
    revertIf (grossAmount > remaining) (.payoutCapExceeded i grossAmount remaining)
    let w := w.setModule m (mod.setIncident incidentId
      { inc with poolBudget := inc.poolBudget.set i (remaining - grossAmount) })
    let pool ← orRevert inc.pools[i]? (.panic .indexOutOfBounds)
    let w ← w.callPool pool m (.payClaim claimant amount)
    let protocolFee ← checkedSub grossAmount amount
    w.payProtocolFee m incidentId pool feeReceiver protocolFee

/-- `_payClaimAmounts`. -/
def payClaimAmounts (w : World) (m : Address) (incidentId : Nat) (claimant : Address)
    (amounts : List Nat) : Call World := do
  let mod ← w.getModule m
  let feeReceiver := w.registry.protocolFeeConfig.receiver
  (List.range (mod.incidents incidentId).pools.length).foldlM
    (payClaimAmount m incidentId claimant feeReceiver amounts) w

/-- The score of an accepted payout, recorded in the Registry. -/
def spendScore (platform : Platform) (w : World) (m : Address) (incidentId : Nat)
    (claimant : Address) (scoreSpent : Nat) : Call World :=
  if scoreSpent ≠ 0 then do
    let w := w.emit m (.scoreSpent claimant scoreSpent incidentId)
    let (registry, event) ← w.registry.recordScoreSpent m claimant scoreSpent
    pure ({ w with registry := registry }.emit platform.registryAddress event)
  else pure w

/-- The payout block of `finalizeClaim`. -/
def payAccepted (platform : Platform) (w : World) (m : Address) (incidentId : Nat)
    (claimant : Address) (row : PayoutRow) : Call World := do
  let w ← w.payClaimAmounts m incidentId claimant row.amounts
  w.spendScore platform m incidentId claimant row.scoreSpent

/-- The end of `finalizeClaim`. -/
def closeClaim (w : World) (m : Address) (claimId : Nat) (paid eligible : Bool) :
    Call World := do
  let mod ← w.getModule m
  let claim := mod.claims claimId
  let inc := mod.incidents claim.incidentId
  let unresolved ← checkedSub inc.unresolvedClaims 1
  pure ((w.setModule m (mod.setIncident claim.incidentId
      (closedIncident inc unresolved w.now))).emit m
    (if paid = true then .claimFinalized claimId claim.user
      else .claimDeclined claimId claim.user eligible))

/-- The proof-backed branch of `finalizeClaim`. -/
def settleRow (platform : Platform) (w : World) (m sender : Address) (mod : DefiInsurance)
    (claimId : Nat) (acceptPayout : Bool) (row : PayoutRow) (proof : List Hash) :
    Call World := do
  let claim := mod.claims claimId
  let paid := acceptPayout && row.eligible
  w.checkRow platform m sender mod claimId acceptPayout row proof
  let w ← w.releaseClaim m mod claimId paid row
  let w ← (if paid = true then
    w.payAccepted platform m claim.incidentId claim.user row else pure w)
  w.closeClaim m claimId paid row.eligible

def finalizeClaim (platform : Platform) (w : World) (m sender : Address) (claimId : Nat)
    (acceptPayout : Bool) (row : PayoutRow) (proof : List Hash) : Call World := do
  let mod ← w.getModule m
  let claim := mod.claims claimId
  revertIf (claim.user = Address.zero) (.unauthorizedClaim claimId)
  revertIf (claim.resolved = true) (.claimAlreadyResolved claimId)
  if w.registry.defiInsurance ≠ m ∨ (mod.incidents claim.incidentId).root = Hash.zero then
    w.recoverClaim m sender mod claimId acceptPayout
  else w.settleRow platform m sender mod claimId acceptPayout row proof

end World

/-! ## External calls -/

inductive ModuleCall where
  | setClaimBondAmount (amount : Nat)
  | setSettlementParams (params : SettlementParams)
  | setTeeSigner (signer : Address) (authorized : Bool)
  | editInsuredToken (token : Address) (recipe : InsuredToken)
  | sweepToken (token recipient : Address)
  | openClaimIncident (token : Address) (referenceBlock : Nat)
  | fileClaim (token : Address) (insuredTokenAmount scoreToSpend boosterAmount : Nat)
      (referenceBlock : Nat) (signature : List Byte)
  | cancelClaim
  | settleIncident (root : Hash) (poolPayouts : List Nat) (signature : List Byte)
  | adminCorrectSettlement (root : Hash) (poolPayouts : List Nat)
  | finalizeClaim (claimId : Nat) (acceptPayout : Bool) (row : PayoutRow) (proof : List Hash)

/-- The words of a row fit `uint256`. -/
def PayoutRow.Encodable (row : PayoutRow) : Prop :=
  (∀ amount ∈ row.amounts, amount < uintBound 256) ∧ row.scoreSpent < uintBound 256 ∧
    row.boostedScore < uintBound 256 ∧ row.eligibleAmount < uintBound 256 ∧
    row.eligibleBoosterAmount < uintBound 256

instance (row : PayoutRow) : Decidable row.Encodable := by
  unfold PayoutRow.Encodable
  infer_instance

def ModuleCall.Encodable : ModuleCall → Prop
  | .setClaimBondAmount amount => amount < uintBound 128
  | .setSettlementParams params =>
      params.twapLookbackBlocks < uintBound 64 ∧ params.minHoldingRequired < uintBound 64 ∧
        params.sampleStepBlocks < uintBound 64
  | .editInsuredToken _ recipe => recipe.maxCoverageBps < uintBound 256
  | .openClaimIncident _ referenceBlock => referenceBlock < uintBound 64
  | .fileClaim _ insuredTokenAmount scoreToSpend boosterAmount referenceBlock _ =>
      insuredTokenAmount < uintBound 128 ∧ scoreToSpend < uintBound 256 ∧
        boosterAmount < uintBound 256 ∧ referenceBlock < uintBound 64
  | .settleIncident _ poolPayouts _ => ∀ payout ∈ poolPayouts, payout < uintBound 256
  | .adminCorrectSettlement _ poolPayouts => ∀ payout ∈ poolPayouts, payout < uintBound 256
  | .finalizeClaim claimId _ row _ => claimId < uintBound 256 ∧ row.Encodable
  | _ => True

instance (call : ModuleCall) : Decidable call.Encodable := by
  cases call <;> unfold ModuleCall.Encodable <;> infer_instance

/-- A call to the module at `m`. -/
def World.callModule (platform : Platform) (w : World) (m sender : Address)
    (call : ModuleCall) : Call World := do
  revertIf (¬ call.Encodable) .abiDecode
  match call with
  | .setClaimBondAmount amount => w.setClaimBondAmount m sender amount
  | .setSettlementParams params => w.setSettlementParams m sender params
  | .setTeeSigner signer authorized => w.setTeeSigner m sender signer authorized
  | .editInsuredToken token recipe => w.editInsuredToken m sender token recipe
  | .sweepToken token recipient => w.sweepModuleToken m sender token recipient
  | .openClaimIncident token referenceBlock =>
      w.openClaimIncident m sender token referenceBlock
  | .fileClaim token insuredTokenAmount scoreToSpend boosterAmount referenceBlock signature =>
      w.fileClaim platform m sender token insuredTokenAmount scoreToSpend boosterAmount
        referenceBlock signature
  | .cancelClaim => w.cancelClaim platform m sender
  | .settleIncident root poolPayouts signature =>
      w.settleIncident platform m root poolPayouts signature
  | .adminCorrectSettlement root poolPayouts =>
      w.adminCorrectSettlement m sender root poolPayouts
  | .finalizeClaim claimId acceptPayout row proof =>
      w.finalizeClaim platform m sender claimId acceptPayout row proof

end Usd8Core.Chain
