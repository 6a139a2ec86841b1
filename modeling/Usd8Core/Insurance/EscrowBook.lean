import Usd8Core.Insurance.Payouts

/-!
# The books of an insurance module

The counters of a module are sums over its unresolved claims: what is escrowed
of each token, the bonds, and how many claims each incident still has.  Four
changes of the storage keep the books: an incident is rewritten without touching
its claims, an incident is opened, a claim is filed, a claim is resolved.
-/

set_option autoImplicit false

namespace Usd8Core.Insurance

open Usd8Core.Lib.ByteWords
open Usd8Core.Lib.CheckedCall
open Usd8Core.Lib.FiniteLedger
open Usd8Core.Chain

/-! ## Sums over unresolved claims -/

/-- A filed claim that has not been resolved. -/
def IsLive (claim : Claim) : Prop := claim.user ≠ Address.zero ∧ claim.resolved = false

instance (claim : Claim) : Decidable (IsLive claim) := by
  unfold IsLive
  infer_instance

/-- The unresolved claims among the first `count` ids. -/
def liveClaims (claims : Nat → Claim) (count : Nat) : Finset Nat :=
  (Finset.range count).filter fun id => IsLive (claims id)

def liveSum (claims : Nat → Claim) (count : Nat) (weight : Claim → Nat) : Nat :=
  ∑ id ∈ liveClaims claims count, weight (claims id)

section Sums

variable {claims : Nat → Claim} {count : Nat}

theorem mem_liveClaims_iff (id : Nat) :
    id ∈ liveClaims claims count ↔ id < count ∧ IsLive (claims id) := by
  rw [liveClaims, Finset.mem_filter, Finset.mem_range]

theorem liveSum_congr (first second : Claim → Nat)
    (agree : ∀ id, id < count → IsLive (claims id) → first (claims id) = second (claims id)) :
    liveSum claims count first = liveSum claims count second := by
  apply Finset.sum_congr rfl
  intro id member
  obtain ⟨inside, live⟩ := (mem_liveClaims_iff id).mp member
  exact agree id inside live

theorem liveSum_filed (claims : Nat → Claim) (count : Nat) (claim : Claim) (live : IsLive claim) (weight : Claim → Nat) :
    liveSum (Function.update claims count claim) (count + 1) weight =
      liveSum claims count weight + weight claim := by
  have grown : liveClaims (Function.update claims count claim) (count + 1) =
      insert count (liveClaims claims count) := by
    ext id
    rw [mem_liveClaims_iff, Finset.mem_insert, mem_liveClaims_iff]
    by_cases same : id = count
    · subst same
      simp [live]
    · rw [Function.update_of_ne same]
      constructor
      · rintro ⟨inside, isLive⟩
        exact Or.inr ⟨by omega, isLive⟩
      · rintro (isCount | ⟨inside, isLive⟩)
        · exact absurd isCount same
        · exact ⟨by omega, isLive⟩
  have fresh : count ∉ liveClaims claims count := by
    rw [mem_liveClaims_iff]
    rintro ⟨inside, -⟩
    omega
  rw [liveSum, grown, Finset.sum_insert fresh, Function.update_self, Nat.add_comm]
  congr 1
  apply Finset.sum_congr rfl
  intro id member
  have differ : id ≠ count := by
    rintro rfl
    exact fresh member
  rw [Function.update_of_ne differ]

theorem liveSum_resolved (claims : Nat → Claim) (count id : Nat) (inside : id < count) (live : IsLive (claims id))
    (weight : Claim → Nat) :
    liveSum (Function.update claims id { claims id with resolved := true }) count weight +
      weight (claims id) = liveSum claims count weight := by
  have member : id ∈ liveClaims claims count := (mem_liveClaims_iff id).mpr ⟨inside, live⟩
  have shrunk : liveClaims (Function.update claims id { claims id with resolved := true }) count =
      (liveClaims claims count).erase id := by
    ext other
    rw [mem_liveClaims_iff, Finset.mem_erase, mem_liveClaims_iff]
    by_cases same : other = id
    · subst same
      simp [IsLive]
    · rw [Function.update_of_ne same]
      simp [same]
  have kept : liveSum (Function.update claims id { claims id with resolved := true }) count weight =
      ∑ other ∈ (liveClaims claims count).erase id, weight (claims other) := by
    rw [liveSum, shrunk]
    apply Finset.sum_congr rfl
    intro other otherMember
    rw [Function.update_of_ne (Finset.ne_of_mem_erase otherMember)]
  rw [kept, liveSum]
  exact Finset.sum_erase_add _ _ member

theorem le_liveSum (id : Nat) (inside : id < count) (live : IsLive (claims id))
    (weight : Claim → Nat) : weight (claims id) ≤ liveSum claims count weight := by
  have split := liveSum_resolved claims count id inside live weight
  omega

end Sums

/-! ## The books -/

/-- What a live claim adds to the escrow of a token. -/
def tokenWeight (incidents : Nat → Incident) (token : Address) (claim : Claim) : Nat :=
  if (incidents claim.incidentId).insuredToken = token then claim.insuredTokenAmount else 0

/-- What a live claim adds to the count of an incident. -/
def incidentWeight (incidentId : Nat) (claim : Claim) : Nat :=
  if claim.incidentId = incidentId then 1 else 0

structure EscrowBook (mod : DefiInsurance) : Prop where
  firstIncident : 1 ≤ mod.nextIncidentId
  unfiled : ∀ id, id = 0 ∨ mod.nextClaimId ≤ id → (mod.claims id).user = Address.zero
  unopened : ∀ id, mod.nextIncidentId ≤ id → mod.incidents id = Incident.empty
  incidentOf : ∀ id, (mod.claims id).user ≠ Address.zero →
    1 ≤ (mod.claims id).incidentId ∧ (mod.claims id).incidentId < mod.nextIncidentId
  claimOf : ∀ incidentId user, mod.claimIdByIncidentAndUser incidentId user ≠ 0 →
    (mod.claims (mod.claimIdByIncidentAndUser incidentId user)).user = user ∧
      user ≠ Address.zero ∧
      (mod.claims (mod.claimIdByIncidentAndUser incidentId user)).incidentId = incidentId
  tokens : ∀ token, mod.escrowedInsuredTokens token =
    liveSum mod.claims mod.nextClaimId (tokenWeight mod.incidents token)
  bonds : mod.escrowedClaimBonds = liveSum mod.claims mod.nextClaimId Claim.bondAmount
  counts : ∀ incidentId, (mod.incidents incidentId).unresolvedClaims =
    liveSum mod.claims mod.nextClaimId (incidentWeight incidentId)

/-- A live claim of a module resolved, with its tokens, its bond and its place in the
count of its incident released. -/
structure ClaimResolved (mod after : DefiInsurance) (claimId : Nat) : Prop where
  filed : (mod.claims claimId).user ≠ Address.zero
  unresolved : (mod.claims claimId).resolved = false
  nextIncidentId : after.nextIncidentId = mod.nextIncidentId
  nextClaimId : after.nextClaimId = mod.nextClaimId
  claims : after.claims =
    Function.update mod.claims claimId { mod.claims claimId with resolved := true }
  claimIds : ∀ incidentId user,
    after.claimIdByIncidentAndUser incidentId user = 0 ∨
      after.claimIdByIncidentAndUser incidentId user =
        mod.claimIdByIncidentAndUser incidentId user
  escrowed : after.escrowedInsuredTokens = Function.update mod.escrowedInsuredTokens
    (mod.incidents (mod.claims claimId).incidentId).insuredToken
    (mod.escrowedInsuredTokens (mod.incidents (mod.claims claimId).incidentId).insuredToken -
      (mod.claims claimId).insuredTokenAmount)
  bonds : after.escrowedClaimBonds = mod.escrowedClaimBonds - (mod.claims claimId).bondAmount
  sameToken : ∀ id, (after.incidents id).insuredToken = (mod.incidents id).insuredToken
  otherIncident : ∀ id, id ≠ (mod.claims claimId).incidentId →
    after.incidents id = mod.incidents id
  counted : (after.incidents (mod.claims claimId).incidentId).unresolvedClaims =
    (mod.incidents (mod.claims claimId).incidentId).unresolvedClaims - 1

namespace EscrowBook

variable {mod after : DefiInsurance}

theorem inside (book : EscrowBook mod) {id : Nat} (filed : (mod.claims id).user ≠ Address.zero) :
    1 ≤ id ∧ id < mod.nextClaimId := by
  constructor
  · by_contra zero
    exact filed (book.unfiled id (Or.inl (by omega)))
  · by_contra beyond
    exact filed (book.unfiled id (Or.inr (Nat.le_of_not_lt beyond)))

/-- No claim of a user on an incident that was not opened. -/
theorem noClaimOf (book : EscrowBook mod) (incidentId : Nat) (user : Address)
    (notOpened : mod.nextIncidentId ≤ incidentId) :
    mod.claimIdByIncidentAndUser incidentId user = 0 := by
  by_contra claimed
  obtain ⟨sameUser, notZero, sameIncident⟩ := book.claimOf incidentId user claimed
  have opened := book.incidentOf _ (by rw [sameUser]; exact notZero)
  omega

theorem initial : EscrowBook DefiInsurance.initial := by
  have nothing : ∀ weight, liveSum DefiInsurance.initial.claims DefiInsurance.initial.nextClaimId
      weight = 0 := by
    intro weight
    apply Finset.sum_eq_zero
    intro id member
    obtain ⟨-, live⟩ := (mem_liveClaims_iff id).mp member
    exact absurd rfl live.1
  refine ⟨le_rfl, fun _ _ => rfl, fun _ _ => rfl, fun _ filed => absurd rfl filed,
    fun _ _ claimed => absurd rfl claimed, ?_, ?_, ?_⟩
  · intro token
    rw [nothing]
    rfl
  · rw [nothing]
    rfl
  · intro incidentId
    rw [nothing]
    rfl

/-- Incidents rewritten without touching their token or their claims. -/
theorem ofIncidents (book : EscrowBook mod) (nextIncidentId : after.nextIncidentId = mod.nextIncidentId)
    (nextClaimId : after.nextClaimId = mod.nextClaimId) (claims : after.claims = mod.claims)
    (claimIds : after.claimIdByIncidentAndUser = mod.claimIdByIncidentAndUser)
    (escrowed : after.escrowedInsuredTokens = mod.escrowedInsuredTokens)
    (bonds : after.escrowedClaimBonds = mod.escrowedClaimBonds)
    (sameToken : ∀ id, (after.incidents id).insuredToken = (mod.incidents id).insuredToken)
    (sameCount : ∀ id, (after.incidents id).unresolvedClaims = (mod.incidents id).unresolvedClaims)
    (unopened : ∀ id, mod.nextIncidentId ≤ id → after.incidents id = Incident.empty) :
    EscrowBook after := by
  have sameWeight : ∀ token, tokenWeight after.incidents token =
      tokenWeight mod.incidents token := by
    intro token
    funext claim
    rw [tokenWeight, tokenWeight, sameToken]
  refine ⟨?_, ?_, ?_, ?_, ?_, ?_, ?_, ?_⟩
  · rw [nextIncidentId]
    exact book.firstIncident
  · rw [claims, nextClaimId]
    exact book.unfiled
  · rw [nextIncidentId]
    exact unopened
  · rw [claims, nextIncidentId]
    exact book.incidentOf
  · rw [claims, claimIds]
    exact book.claimOf
  · intro token
    rw [escrowed, claims, nextClaimId, sameWeight]
    exact book.tokens token
  · rw [bonds, claims, nextClaimId]
    exact book.bonds
  · intro incidentId
    rw [sameCount, claims, nextClaimId]
    exact book.counts incidentId

theorem ofSameClaims (book : EscrowBook mod) (same : SameClaims mod after) : EscrowBook after :=
  book.ofIncidents same.nextIncidentId same.nextClaimId same.claims same.claimIds same.escrowed
    same.bonds (fun id => by rw [same.incidents]) (fun id => by rw [same.incidents])
    (fun id notOpened => by rw [same.incidents]; exact book.unopened id notOpened)

/-- One incident rewritten, with its token and its count of claims kept. -/
theorem setIncident (book : EscrowBook mod) (incidentId : Nat) (incident : Incident)
    (opened : incidentId < mod.nextIncidentId)
    (sameToken : incident.insuredToken = (mod.incidents incidentId).insuredToken)
    (sameCount : incident.unresolvedClaims = (mod.incidents incidentId).unresolvedClaims) :
    EscrowBook (mod.setIncident incidentId incident) := by
  refine book.ofIncidents rfl rfl rfl rfl rfl rfl ?_ ?_ ?_
  · intro id
    by_cases same : id = incidentId
    · subst same
      exact (congrArg Incident.insuredToken (Function.update_self ..)).trans sameToken
    · exact congrArg Incident.insuredToken (Function.update_of_ne same ..)
  · intro id
    by_cases same : id = incidentId
    · subst same
      exact (congrArg Incident.unresolvedClaims (Function.update_self ..)).trans sameCount
    · exact congrArg Incident.unresolvedClaims (Function.update_of_ne same ..)
  · intro id notOpened
    have differ : id ≠ incidentId := by omega
    exact (Function.update_of_ne differ ..).trans (book.unopened id notOpened)

/-- A new incident under the next id. -/
theorem opened (book : EscrowBook mod) (token : Address) (block : Block) (registry : Registry)
    (referenceBlock claimDeadline : Nat) (teePcrHash : Hash) :
    EscrowBook (World.openedModule mod token block registry referenceBlock claimDeadline
      teePcrHash) := by
  have old : ∀ id, id ≠ mod.nextIncidentId → (World.openedModule mod token block registry
      referenceBlock claimDeadline teePcrHash).incidents id = mod.incidents id :=
    fun id differ => Function.update_of_ne differ ..
  have fresh := book.unopened mod.nextIncidentId le_rfl
  refine ⟨Nat.le_add_left 1 _, book.unfiled, ?_, ?_, book.claimOf, ?_, book.bonds, ?_⟩
  · intro id notOpened
    have beyond : mod.nextIncidentId + 1 ≤ id := notOpened
    rw [old id (by omega)]
    exact book.unopened id (by omega)
  · intro id filed
    have opened := book.incidentOf id filed
    exact ⟨opened.1, Nat.lt_succ_of_lt opened.2⟩
  · intro other
    refine (book.tokens other).trans ?_
    apply liveSum_congr
    intro id _ live
    have opened := book.incidentOf id live.1
    rw [tokenWeight, tokenWeight, old _ (by omega)]
  · intro incidentId
    have counted : ((World.openedModule mod token block registry referenceBlock claimDeadline
        teePcrHash).incidents incidentId).unresolvedClaims =
        (mod.incidents incidentId).unresolvedClaims := by
      by_cases same : incidentId = mod.nextIncidentId
      · subst same
        unfold World.openedModule
        dsimp only
        rw [Function.update_self]
      · rw [old incidentId same]
    exact counted.trans (book.counts incidentId)

/-- A claim filed by `sender` on an opened incident of `token`. -/
theorem registered (book : EscrowBook mod) (platform : Platform) (incidentId : Nat)
    (sender token : Address) (escrow bondAmount scoreToSpend boosterAmount : Nat)
    (notZero : sender ≠ Address.zero) (positive : 1 ≤ incidentId)
    (opened : incidentId < mod.nextIncidentId) (firstClaim : 1 ≤ mod.nextClaimId)
    (sameToken : (mod.incidents incidentId).insuredToken = token) :
    EscrowBook (World.registeredModule platform mod incidentId sender token escrow bondAmount
      scoreToSpend boosterAmount) := by
  generalize claimEq : (⟨sender, incidentId, escrow, boosterAmount, bondAmount, false⟩ : Claim) =
    claim
  generalize afterEq : World.registeredModule platform mod incidentId sender token escrow
    bondAmount scoreToSpend boosterAmount = after
  have claimsEq : after.claims = Function.update mod.claims mod.nextClaimId claim := by
    rw [← afterEq, ← claimEq]
    rfl
  have countEq : after.nextClaimId = mod.nextClaimId + 1 := by rw [← afterEq]; rfl
  have live : IsLive claim := by
    rw [← claimEq]
    exact ⟨notZero, rfl⟩
  have userEq : claim.user = sender := by rw [← claimEq]
  have incidentEq : claim.incidentId = incidentId := by rw [← claimEq]
  have filed : ∀ weight, liveSum after.claims after.nextClaimId weight =
      liveSum mod.claims mod.nextClaimId weight + weight claim := by
    intro weight
    rw [claimsEq, countEq]
    exact liveSum_filed mod.claims mod.nextClaimId claim live weight
  have otherClaim : ∀ id, id ≠ mod.nextClaimId → after.claims id = mod.claims id := by
    intro id differ
    rw [claimsEq, Function.update_of_ne differ]
  have thisClaim : after.claims mod.nextClaimId = claim := by
    rw [claimsEq, Function.update_self]
  have otherIncident : ∀ id, id ≠ incidentId → after.incidents id = mod.incidents id := by
    intro id differ
    rw [← afterEq]
    exact Function.update_of_ne differ ..
  have thisToken : ∀ id, (after.incidents id).insuredToken = (mod.incidents id).insuredToken := by
    intro id
    by_cases same : id = incidentId
    · subst same
      rw [← afterEq]
      unfold World.registeredModule
      dsimp only
      rw [Function.update_self]
    · rw [otherIncident id same]
  have thisCount : (after.incidents incidentId).unresolvedClaims =
      (mod.incidents incidentId).unresolvedClaims + 1 := by
    rw [← afterEq]
    unfold World.registeredModule
    dsimp only
    rw [Function.update_self]
  refine ⟨?_, ?_, ?_, ?_, ?_, ?_, ?_, ?_⟩
  · rw [← afterEq]
    exact book.firstIncident
  · intro id outside
    rw [countEq] at outside
    rw [otherClaim id (by omega)]
    exact book.unfiled id (by omega)
  · intro id notOpened
    have beyond : mod.nextIncidentId ≤ id := by
      rw [← afterEq] at notOpened
      exact notOpened
    rw [otherIncident id (by omega)]
    exact book.unopened id beyond
  · intro id isFiled
    have sameNext : after.nextIncidentId = mod.nextIncidentId := by rw [← afterEq]; rfl
    rw [sameNext]
    by_cases same : id = mod.nextClaimId
    · subst same
      rw [thisClaim, incidentEq]
      exact ⟨positive, opened⟩
    · rw [otherClaim id same] at isFiled ⊢
      exact book.incidentOf id isFiled
  · intro other user claimed
    have idsEq : after.claimIdByIncidentAndUser = Function.update mod.claimIdByIncidentAndUser
        incidentId (Function.update (mod.claimIdByIncidentAndUser incidentId) sender
          mod.nextClaimId) := by
      rw [← afterEq]
      rfl
    by_cases written : other = incidentId ∧ user = sender
    · obtain ⟨rfl, rfl⟩ := written
      rw [idsEq, Function.update_self, Function.update_self, thisClaim]
      exact ⟨userEq, notZero, incidentEq⟩
    · have idEq : after.claimIdByIncidentAndUser other user =
          mod.claimIdByIncidentAndUser other user := by
        rw [idsEq]
        by_cases sameIncident : other = incidentId
        · subst sameIncident
          rw [Function.update_self, Function.update_of_ne (fun same => written ⟨rfl, same⟩)]
        · rw [Function.update_of_ne sameIncident]
      rw [idEq] at claimed ⊢
      obtain ⟨sameUser, userNotZero, sameIncident⟩ := book.claimOf other user claimed
      have inside := (book.inside (by rw [sameUser]; exact userNotZero)).2
      rw [otherClaim _ (by omega)]
      exact ⟨sameUser, userNotZero, sameIncident⟩
  · intro other
    have weights : tokenWeight after.incidents other = tokenWeight mod.incidents other := by
      funext someClaim
      rw [tokenWeight, tokenWeight, thisToken]
    rw [weights, filed, ← book.tokens other]
    have escrowedEq : after.escrowedInsuredTokens = Function.update mod.escrowedInsuredTokens
        token (mod.escrowedInsuredTokens token + escrow) := by
      rw [← afterEq]
      rfl
    have weightEq : tokenWeight mod.incidents other claim =
        if token = other then escrow else 0 := by
      rw [tokenWeight, incidentEq, sameToken, ← claimEq]
    rw [escrowedEq, weightEq]
    by_cases same : other = token
    · subst same
      rw [Function.update_self, if_pos rfl]
    · rw [Function.update_of_ne same, if_neg (Ne.symm same), Nat.add_zero]
  · rw [filed, ← book.bonds, ← afterEq, ← claimEq]
    rfl
  · intro other
    rw [filed, ← book.counts other, incidentWeight, incidentEq]
    by_cases same : other = incidentId
    · subst same
      rw [thisCount, if_pos rfl]
    · rw [otherIncident other same, if_neg (Ne.symm same), Nat.add_zero]

/-- A live claim resolved and its escrow taken off the books. -/
theorem resolved (book : EscrowBook mod) (claimId : Nat)
    (done : ClaimResolved mod after claimId) : EscrowBook after := by
  obtain ⟨filed, unresolved, nextIncidentId, nextClaimId, claims, claimIds, escrowed, bonds,
    sameToken, otherIncident, counted⟩ := done
  have live : IsLive (mod.claims claimId) := ⟨filed, unresolved⟩
  have inside := (book.inside filed).2
  have opened := book.incidentOf claimId filed
  have left : ∀ weight, liveSum after.claims after.nextClaimId weight + weight (mod.claims claimId) =
      liveSum mod.claims mod.nextClaimId weight := by
    intro weight
    rw [claims, nextClaimId]
    exact liveSum_resolved mod.claims mod.nextClaimId claimId inside live weight
  have sameUser : ∀ id, (after.claims id).user = (mod.claims id).user ∧
      (after.claims id).incidentId = (mod.claims id).incidentId := by
    intro id
    rw [claims]
    by_cases same : id = claimId
    · subst same
      rw [Function.update_self]
      exact ⟨rfl, rfl⟩
    · rw [Function.update_of_ne same]
      exact ⟨rfl, rfl⟩
  refine ⟨?_, ?_, ?_, ?_, ?_, ?_, ?_, ?_⟩
  · rw [nextIncidentId]
    exact book.firstIncident
  · intro id outside
    rw [nextClaimId] at outside
    rw [(sameUser id).1]
    exact book.unfiled id outside
  · intro id notOpened
    rw [nextIncidentId] at notOpened
    rw [otherIncident id (by omega)]
    exact book.unopened id notOpened
  · intro id isFiled
    rw [(sameUser id).1] at isFiled
    rw [(sameUser id).2, nextIncidentId]
    exact book.incidentOf id isFiled
  · intro incidentId user claimed
    rcases claimIds incidentId user with zero | kept
    · exact absurd zero claimed
    · rw [kept] at claimed ⊢
      rw [(sameUser _).1, (sameUser _).2]
      exact book.claimOf incidentId user claimed
  · intro token
    have weights : tokenWeight after.incidents token = tokenWeight mod.incidents token := by
      funext someClaim
      rw [tokenWeight, tokenWeight, sameToken]
    have taken := left (tokenWeight mod.incidents token)
    rw [weights, escrowed]
    rw [← book.tokens token, tokenWeight] at taken
    by_cases same : token = (mod.incidents (mod.claims claimId).incidentId).insuredToken
    · rw [if_pos same.symm] at taken
      subst same
      rw [Function.update_self]
      omega
    · rw [if_neg (Ne.symm same)] at taken
      rw [Function.update_of_ne same]
      omega
  · have taken := left Claim.bondAmount
    rw [← book.bonds] at taken
    omega
  · intro incidentId
    have taken := left (incidentWeight incidentId)
    rw [← book.counts incidentId, incidentWeight] at taken
    by_cases same : incidentId = (mod.claims claimId).incidentId
    · rw [if_pos same.symm] at taken
      subst same
      rw [counted]
      omega
    · rw [if_neg (Ne.symm same)] at taken
      rw [otherIncident incidentId same]
      omega

/-- A live claim is covered by the counters of its module. -/
theorem covers (book : EscrowBook mod) (claimId : Nat)
    (filed : (mod.claims claimId).user ≠ Address.zero)
    (unresolved : (mod.claims claimId).resolved = false) :
    (mod.claims claimId).insuredTokenAmount ≤ mod.escrowedInsuredTokens
        (mod.incidents (mod.claims claimId).incidentId).insuredToken ∧
      (mod.claims claimId).bondAmount ≤ mod.escrowedClaimBonds ∧
      1 ≤ (mod.incidents (mod.claims claimId).incidentId).unresolvedClaims := by
  have live : IsLive (mod.claims claimId) := ⟨filed, unresolved⟩
  have inside := (book.inside filed).2
  refine ⟨?_, ?_, ?_⟩
  · have bound := le_liveSum claimId inside live (tokenWeight mod.incidents
      (mod.incidents (mod.claims claimId).incidentId).insuredToken)
    rw [tokenWeight, if_pos rfl, ← book.tokens] at bound
    exact bound
  · have bound := le_liveSum claimId inside live Claim.bondAmount
    rw [← book.bonds] at bound
    exact bound
  · have bound := le_liveSum claimId inside live
      (incidentWeight (mod.claims claimId).incidentId)
    rw [incidentWeight, if_pos rfl, ← book.counts] at bound
    exact bound

end EscrowBook

end Usd8Core.Insurance
