import Usd8Core.Insurance.Acceptance
import Usd8Core.Settlement.RowBounds
import Usd8Core.Settlement.MerkleCommitment

/-!
# No score is spent twice

The Registry never sees what a user has earned.  The bound comes from the rows: a
row that is paid is a row of the committed allocation, the kernel cuts its score to
what was unspent when the incident opened, and nothing was spent since.
-/

set_option autoImplicit false

namespace Usd8Core.Settlement

open Usd8Core.Lib.ByteWords
open Usd8Core.Lib.CheckedCall
open Usd8Core.Lib.HeapMerkle
open Usd8Core.Lib.TraceRun
open Usd8Core.Chain
open Usd8Core.Kernel
open Usd8Core.Insurance

/-- The user's spent score as the Registry gives it at some point of the incident's
open block, the end of the block among them, with the incident open. -/
def ReadAtOpenBlock (m : Address) (id : Nat) (user : Address) (score : Nat)
    (earlier : List (Transition World Tx)) : Prop :=
  ∃ t ∈ earlier, ∃ mod, t.after.modules m = some mod ∧ id < mod.nextIncidentId ∧
    t.after.block.number = (mod.incidents id).openBlock ∧
    score = t.after.registry.scoreSpent user

/-- The root is the kernel's, for claims with the scores of the incident's two blocks. -/
structure AllocatedRoot (platform : Platform) (gross : Address → Nat → Nat)
    (cutoff : Address → Nat → Nat) (m : Address) (id : Nat) (root : Hash)
    (earlier : List (Transition World Tx)) (input : KernelInput) : Prop where
  allocated : ∃ output, allocate platform.keccak256 input = .ok output ∧
    output.root = hashHex root
  spent : ∀ claim ∈ input.claims, ReadAtOpenBlock m id claim.user claim.spentScore earlier
  earned : ∀ claim ∈ input.claims, claim.grossEarnedScore = gross claim.user (cutoff m id)

/-- The greatest of the scores, zero when there is none. -/
def greatest (scores : List Nat) : Nat := scores.foldr max 0

theorem greatest_append (first second : List Nat) :
    greatest (first ++ second) = max (greatest first) (greatest second) := by
  induction first with
  | nil => simp [greatest]
  | cons score first ih =>
      simp only [greatest, List.cons_append, List.foldr_cons] at ih ⊢
      rw [ih, max_assoc]

/-- The strings hashed to build the tree of an allocation and to check one claim against it. -/
def hashedStrings (keccak256 : List Byte → Hash) (input : KernelInput) (incidentId claimId : Nat)
    (user : Address) (row : PayoutRow) (proof : List Hash) : List (List Byte) :=
  treeStrings keccak256 input.incidentId ((allocatedRows input).map SettledRow.merkleRow) ++
    claimStrings keccak256 incidentId (claimedRow claimId user row) proof

section Rows

variable {platform : Platform} {m : Address} {w : World} {mod : DefiInsurance} {id claimId : Nat}
  {root : Hash} {row : PayoutRow} {proof : List Hash}

/-- A root that is not empty has a tree. -/
theorem commitRows_tree (keccak256 : List Byte → Hash) (incidentId : Nat) (rows : List SettledRow)
    (proofs : List (Nat × List String)) (notZero : root ≠ Hash.zero)
    (run : commitRows keccak256 incidentId rows = .ok (hashHex root, proofs)) :
    ∃ tree, SettlementTree.new keccak256 incidentId (rows.map SettledRow.merkleRow) = .ok tree ∧
      tree.root = root := by
  unfold commitRows at run
  split at run
  next =>
    have sameText := congrArg Prod.fst (Except.ok.inj run)
    exact absurd (hashHex_injective sameText).symm notZero
  next =>
    obtain ⟨tree, built, result⟩ := (bind_ok_iff _ _ _).mp run
    have sameText : tree.rootHex = hashHex root := congrArg Prod.fst ((pure_ok_iff _ _).mp result)
    exact ⟨tree, built, hashHex_injective sameText⟩

/-- An incident has fewer pools than there are accounts. -/
theorem reachable_poolCount (reachable : Reachable platform w) (present : w.modules m = some mod)
    (id : Nat) : (mod.incidents id).pools.length < uintBound 256 := by
  have bounded := (reachable_poolsNodup reachable present id).length_le_card
  rw [Fintype.card_congr Address.equivFin, Fintype.card_fin] at bounded
  exact lt_of_le_of_lt bounded (by norm_num [uintBound])

/-- The words of a row that the contract hashes are words. -/
theorem leafWords_of_encodable {user : Address} (incidentFits : id < uintBound 256)
    (claimFits : claimId < uintBound 256) (encodable : row.Encodable)
    (countFits : row.amounts.length < uintBound 256) :
    ∀ word ∈ leafWords id (claimedRow claimId user row), word < uintBound 256 := by
  obtain ⟨amounts, score, boosted, eligible, booster⟩ := encodable
  intro word member
  simp only [leafWords, claimedRow, List.mem_append, List.mem_cons, List.not_mem_nil,
    or_false] at member
  rcases member with (rfl | rfl | rfl | rfl | rfl | rfl | rfl | rfl | rfl) | member
  · exact incidentFits
  · exact claimFits
  · exact user.val_lt_word
  · norm_num [uintBound]
  · exact score
  · exact boosted
  · exact eligible
  · exact booster
  · exact countFits
  · exact amounts word member

/-- A proven row is the final row of one of the kernel's claims. -/
theorem proven_row_allocated {user : Address} (input : KernelInput) (output : KernelOutput)
    (run : allocate platform.keccak256 input = .ok output) (rootText : output.root = hashHex root)
    (notZero : root ≠ Hash.zero)
    (fits : ∀ word ∈ leafWords id (claimedRow claimId user row), word < uintBound 256)
    (collisionFree : CollisionFree platform.keccak256
      (hashedStrings platform.keccak256 input id claimId user row proof))
    (proven : merkleProofVerify platform proof root
      (settlementLeaf platform id claimId user row) = true) :
    ∃ claim ∈ input.claims, claim.user = user ∧
      (finalRow input claim).scoreSpent = row.scoreSpent := by
  obtain ⟨-, -, -, commitment⟩ := allocate_ok platform.keccak256 input output run
  rw [rootText] at commitment
  obtain ⟨tree, built, treeRoot⟩ := commitRows_tree _ _ _ _ notZero commitment
  have sameCombine : commutativeKeccak256 platform = standardNodeHash platform.keccak256 := by
    funext a b
    exact commutativeKeccak256_eq platform a b
  have reached : foldProof (standardNodeHash platform.keccak256)
      (leafDigest platform.keccak256 id (claimedRow claimId user row)) proof = tree.root := by
    rw [← settlementLeaf_eq, ← sameCombine, treeRoot]
    simpa [merkleProofVerify] using proven
  obtain ⟨-, listed⟩ := proof_starts_at_row platform.keccak256 input.incidentId _ tree built id _
    proof fits collisionFree reached
  obtain ⟨settled, settledListed, settledEq⟩ := List.mem_map.mp listed
  rw [allocatedRows_eq] at settledListed
  obtain ⟨claim, claimListed, rfl⟩ := List.mem_map.mp settledListed
  refine ⟨claim, claimListed, ?_, congrArg MerkleRow.scoreSpent settledEq⟩
  rw [← (finalRow_bounds input claim).user]
  exact congrArg MerkleRow.user settledEq

end Rows

section Spending

variable {platform : Platform} {user m : Address} {w : World} {mod : DefiInsurance}
  {id claimId : Nat} {row : PayoutRow} {proof : List Hash} {gross : Address → Nat → Nat}
  {cutoff : Address → Nat → Nat}

/-- A payment never lifts the spent score over what the user had earned at the cutoff. -/
theorem scorePaid_within_gross {t commit : Transition World Tx}
    {earlier since : List (Transition World Tx)} {poolPayouts : List Nat} {input : KernelInput}
    (run : SystemRun platform (earlier ++ commit :: since) t.before)
    (paid : ScorePaid platform user m id claimId row proof mod t)
    (commits : Commits m id (mod.incidents id).root poolPayouts commit)
    (fromKernel : AllocatedRoot platform gross cutoff m id (mod.incidents id).root earlier input)
    (collisionFree : CollisionFree platform.keccak256
      (hashedStrings platform.keccak256 input id claimId user row proof)) :
    t.after.registry.scoreSpent user ≤ gross user (cutoff m id) := by
  obtain ⟨sender, released, reaches⟩ := paid.reaches
  have present := reaches.present
  have checked := checkRow_ok mod claimId true row proof _ reaches.checked
  have book := (reachable_moduleInOrder run.reachable present).book
  have proven := checked.proven
  have lengths := checked.lengths
  rw [paid.claimIncident, paid.claimUser] at proven
  rw [paid.claimIncident] at lengths
  have countFits : row.amounts.length < uintBound 256 := by
    rw [lengths]
    exact reachable_poolCount run.reachable present id
  have incidentFits : id < uintBound 256 := by
    have opened := (book.incidentOf claimId reaches.filed).2
    have idsFit := reachable_incidentIds run.reachable present
    rw [paid.claimIncident] at opened
    norm_num [uintBound] at idsFit ⊢
    omega
  have fits : ∀ word ∈ leafWords id (claimedRow claimId user row), word < uintBound 256 :=
    leafWords_of_encodable incidentFits paid.encodable.1 paid.encodable.2 countFits
  obtain ⟨output, allocated, rootText⟩ := fromKernel.allocated
  obtain ⟨claim, listed, sameUser, sameScore⟩ := proven_row_allocated input output allocated
    rootText commits.1 fits collisionFree proven
  obtain ⟨opening, openingListed, openingMod, openingPresent, opened, -, spentEq⟩ :=
    fromKernel.spent claim listed
  obtain ⟨before, between, rfl⟩ := List.append_of_mem openingListed
  rw [List.append_assoc, List.cons_append] at run
  obtain ⟨firstRun, ran, laterRun⟩ := run.split_at
  have unspent := paid.unspentSince (firstRun.reachable.step ran) openingPresent opened laterRun
  have bound := (finalRow_bounds input claim).scoreWithinGross
  have earned := fromKernel.earned claim listed
  have positive : row.scoreSpent ≠ 0 := by
    have eligible := reaches.eligible
    simp only [PayoutRow.eligible, Bool.and_eq_true, decide_eq_true_eq] at eligible
    exact eligible.2
  rw [sameUser] at earned spentEq
  rw [sameScore, earned, spentEq, ← unspent] at bound
  rw [paid.spent]
  omega

/-- In every run whose committed roots are all the kernel's, with the spent scores read
in the incident's open block and the gross scores of its cutoff, the score a user has
spent stays within the greatest gross score over the incidents where the user accepted. -/
theorem no_score_spent_twice (platform : Platform) (gross : Address → Nat → Nat)
    (cutoff : Address → Nat → Nat) (inputOf : Transition World Tx → KernelInput)
    (steps : List (Transition World Tx)) (w : World) (run : SystemRun platform steps w)
    (fromKernel : ∀ earlier commit later m id root poolPayouts,
      steps = earlier ++ commit :: later → Commits m id root poolPayouts commit →
      AllocatedRoot platform gross cutoff m id root earlier (inputOf commit))
    (collisionFree : ∀ commit ∈ steps, ∀ t ∈ steps,
      ∀ m sender mod claimId acceptPayout row proof,
      (∃ id root poolPayouts, Commits m id root poolPayouts commit) →
      t.action = .module m sender (.finalizeClaim claimId acceptPayout row proof) →
      t.before.modules m = some mod →
      CollisionFree platform.keccak256 (hashedStrings platform.keccak256 (inputOf commit)
        (mod.claims claimId).incidentId claimId (mod.claims claimId).user row proof))
    (user : Address) :
    w.registry.scoreSpent user ≤
      greatest ((steps.filterMap (acceptedIncident user)).map fun accepted =>
        gross user (cutoff accepted.1 accepted.2)) := by
  obtain ⟨block, timelock, admin, erc20, erc1155, run⟩ := run
  induction run with
  | nil => exact Nat.zero_le _
  | snoc earlier middle tx final run last ih =>
      have systemRun : SystemRun platform earlier middle :=
        ⟨block, timelock, admin, erc20, erc1155, run⟩
      rw [List.filterMap_append, List.map_append, greatest_append]
      rcases step_scores user systemRun.reachable last with same |
        ⟨m, id, claimId, row, proof, mod, paid⟩
      · rw [same]
        refine le_trans (ih
          (fun first commit later m id root poolPayouts stepsEq commits =>
            fromKernel first commit (later ++ [⟨middle, tx, final⟩]) m id root poolPayouts
              (by simp [stepsEq]) commits)
          (fun commit listed t tListed => collisionFree commit (List.mem_append_left _ listed) t
            (List.mem_append_left _ tListed))) (le_max_left _ _)
      · obtain ⟨sender, released, reaches⟩ := paid.reaches
        have hasRoot := reaches.hasRoot
        rw [paid.claimIncident] at hasRoot
        obtain ⟨first, commit, since, poolPayouts, stepsEq, commits⟩ :=
          root_committed systemRun reaches.present hasRoot
        have allocated := fromKernel first commit (since ++ [⟨middle, tx, final⟩]) m id _ _
          (by simp [stepsEq]) commits
        have apart := collisionFree commit (by simp [stepsEq]) ⟨middle, tx, final⟩ (by simp) m
        obtain ⟨caller, action⟩ := paid.action
        have hashed := apart caller mod claimId true row proof ⟨id, _, poolPayouts, commits⟩ action
          reaches.present
        rw [paid.claimIncident, paid.claimUser] at hashed
        rw [stepsEq] at systemRun
        have bound := scorePaid_within_gross systemRun paid commits allocated hashed
        refine le_trans bound (le_max_of_le_right ?_)
        simp [paid.accepted, greatest]

end Spending

/-! ## The small deployment -/

open SmallDeployment (alice bob aliceRow aliceProof) in
def keepsToSmallInput (steps : List (Transition World Tx)) : Bool :=
  (List.range steps.length).all fun i => steps[i]?.all fun t =>
    match t.action with
    | .module m _ (.settleIncident root _ _) =>
        decide (root = SmallDeployment.root) &&
        (t.before.modules m).all (fun mod => mod.activeIncidentId t.before.now = 1) &&
        (steps.take i).any fun opening => (opening.after.modules m).any fun mod =>
          1 < mod.nextIncidentId ∧
          opening.after.block.number = (mod.incidents 1).openBlock ∧
          opening.after.registry.scoreSpent alice = 0 ∧
          opening.after.registry.scoreSpent bob = 0
    | .module _ _ (.adminCorrectSettlement _ _) => false
    | .module m _ (.finalizeClaim claimId _ row proof) =>
        (t.before.modules m).all fun mod =>
          (mod.claims claimId).incidentId = 1 ∧ proof = aliceProof ∧
          claimedRow claimId (mod.claims claimId).user row = claimedRow 1 alice aliceRow
    | _ => true

theorem keepsToSmallInput_at {earlier later : List (Transition World Tx)}
    {t : Transition World Tx} (keeps : keepsToSmallInput (earlier ++ t :: later) = true) :
    (∀ m sender root poolPayouts signature,
      t.action = .module m sender (.settleIncident root poolPayouts signature) →
      root = SmallDeployment.root ∧
      (∀ mod, t.before.modules m = some mod → mod.activeIncidentId t.before.now = 1) ∧
      ∀ claim ∈ smallInput.claims, ReadAtOpenBlock m 1 claim.user claim.spentScore earlier) ∧
    (∀ m sender root poolPayouts,
      t.action ≠ .module m sender (.adminCorrectSettlement root poolPayouts)) ∧
    ∀ m sender claimId acceptPayout row proof mod,
      t.action = .module m sender (.finalizeClaim claimId acceptPayout row proof) →
      t.before.modules m = some mod →
      (mod.claims claimId).incidentId = 1 ∧ proof = SmallDeployment.aliceProof ∧
      claimedRow claimId (mod.claims claimId).user row =
        claimedRow 1 SmallDeployment.alice SmallDeployment.aliceRow := by
  have inside : earlier.length ∈ List.range (earlier ++ t :: later).length := by simp
  have here := List.all_eq_true.mp keeps _ inside
  have atT : (earlier ++ t :: later)[earlier.length]? = some t := by simp
  have before : (earlier ++ t :: later).take earlier.length = earlier := by simp
  rw [atT, before] at here
  simp only [Option.all_some] at here
  refine ⟨?_, ?_, ?_⟩
  · intro m sender root poolPayouts signature action
    simp only [action, Bool.and_eq_true, decide_eq_true_eq] at here
    obtain ⟨⟨sameRoot, active⟩, opened⟩ := here
    obtain ⟨opening, listed, found⟩ := List.any_eq_true.mp opened
    obtain ⟨mod, present, isOpen⟩ := (Option.any_eq_true _ _).mp found
    obtain ⟨notNew, block, alice, bob⟩ := of_decide_eq_true isOpen
    refine ⟨sameRoot, fun found foundPresent => ?_, fun claim claimListed => ?_⟩
    · rw [foundPresent] at active
      simpa using active
    · simp only [smallInput, List.mem_cons, List.not_mem_nil, or_false] at claimListed
      rcases claimListed with rfl | rfl
      · exact ⟨opening, listed, mod, present, notNew, block, alice.symm⟩
      · exact ⟨opening, listed, mod, present, notNew, block, bob.symm⟩
  · intro m sender root poolPayouts action
    simp [action] at here
  · intro m sender claimId acceptPayout row proof mod action present
    simp only [action, present, Option.all_some, decide_eq_true_eq] at here
    exact here

/-- What the claimants of `smallInput` have earned, at any block. -/
def smallGross (user : Address) (_ : Nat) : Nat :=
  if user = SmallDeployment.alice then 100 else 80

/-- Alice had earned 100 and spends 90 of it. -/
theorem smallDeployment_score_within :
    ∃ (steps : List (Transition World Tx)) (w : World),
      SystemRun SmallDeployment.platform steps w ∧
      w.registry.scoreSpent SmallDeployment.alice = 90 ∧
      w.registry.scoreSpent SmallDeployment.alice ≤
        greatest ((steps.filterMap (acceptedIncident SmallDeployment.alice)).map fun accepted =>
          smallGross SmallDeployment.alice accepted.2) := by
  have passed : endsIn (step SmallDeployment.platform) SmallDeployment.start
      (SmallDeployment.stake ++ SmallDeployment.claim ++ SmallDeployment.settle ++
        SmallDeployment.payout)
      (fun steps w => keepsToSmallInput steps &&
        decide (w.registry.scoreSpent SmallDeployment.alice = 90)) = true := by
    decide +kernel
  obtain ⟨steps, w, run, checked⟩ := endsIn_isRun _ _ passed
  rw [Bool.and_eq_true, decide_eq_true_eq] at checked
  have succeeds : (match allocate SmallDeployment.platform.keccak256 smallInput with
      | .ok output => output.root = hashHex SmallDeployment.root
      | .error _ => false) = true := by decide +kernel
  have collisionFree : CollisionFree SmallDeployment.platform.keccak256
      (treeStrings SmallDeployment.platform.keccak256 smallInput.incidentId
          ((allocatedRows smallInput).map SettledRow.merkleRow) ++
        claimStrings SmallDeployment.platform.keccak256 1
          (claimedRow 1 SmallDeployment.alice SmallDeployment.aliceRow)
          SmallDeployment.aliceProof) :=
    CollisionFree.of_nodup _ _ _ (by decide +kernel) (by decide +kernel)
  refine ⟨steps, w, ⟨_, _, _, _, _, run⟩, checked.2,
    no_score_spent_twice SmallDeployment.platform smallGross (fun _ id => id)
      (fun _ => smallInput) steps w
      ⟨_, _, _, _, _, run⟩ ?_ ?_ SmallDeployment.alice⟩
  · rintro earlier commit later m id root poolPayouts rfl ⟨-, sender, mod, present, active, call⟩
    obtain ⟨settles, notCorrects, -⟩ := keepsToSmallInput_at checked.1
    rcases call with ⟨signature, action⟩ | action
    · obtain ⟨rfl, activeId, readings⟩ := settles m sender root poolPayouts signature action
      cases (activeId mod present).symm.trans active
      refine ⟨?_, readings, ?_⟩
      · revert succeeds
        cases allocate SmallDeployment.platform.keccak256 smallInput with
        | error error => simp
        | ok output => exact fun same => ⟨output, rfl, by simpa using same⟩
      · decide
    · exact absurd action (notCorrects m sender root poolPayouts)
  · intro commit _ t listed m sender mod claimId acceptPayout row proof _ action present
    obtain ⟨earlier, later, rfl⟩ := List.append_of_mem listed
    obtain ⟨-, -, finalizes⟩ := keepsToSmallInput_at checked.1
    obtain ⟨sameIncident, rfl, sameRow⟩ :=
      finalizes m sender claimId acceptPayout row proof mod action present
    rw [hashedStrings, sameIncident, sameRow]
    exact collisionFree

end Usd8Core.Settlement
