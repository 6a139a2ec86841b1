import Usd8Core.Settlement.MerkleCommitment
import Usd8Core.Kernel.ClaimSet

/-!
# What the kernel's two hashes bind

`claim_set_hash` is a rolling commitment over words of two shapes, one for each
event kind, so equal hashes give back the whole event stream.
`settlement_input_hash` is one digest of the rows in the order of their users,
so equal hashes give back the rows up to order, and any order gives the hash.
-/

set_option autoImplicit false

namespace Usd8Core.Settlement

open Usd8Core.Lib.ByteWords
open Usd8Core.Lib.CheckedCall
open Usd8Core.Lib.RollingHash
open Usd8Core.Kernel
open Usd8Core.Chain (SmallDeployment.platform SmallDeployment.alice SmallDeployment.bob)

/-! ## The event stream -/

/-- The fields of an event that the commitment takes in. -/
structure SameCommitted (first second : ClaimEvent) : Prop where
  kind : first.kind = second.kind
  claimId : first.claimId = second.claimId
  registration : first.kind = .register →
    first.user = second.user ∧ first.amount = second.amount ∧
      first.scoreToSpend = second.scoreToSpend ∧ first.boosterAmount = second.boosterAmount

/-- Registrations take six words and cancellations two, so a word list has one reading. -/
theorem eventWords_injective (before before' : Hash) (first second : ClaimEvent)
    (same : eventWords before first = eventWords before' second) :
    before = before' ∧ SameCommitted first second := by
  unfold eventWords at same
  cases firstKind : first.kind <;> cases secondKind : second.kind <;>
    simp only [firstKind, secondKind, List.cons.injEq, and_true, reduceCtorEq,
      and_false] at same
  case register.register =>
    obtain ⟨digest, claimId, user, amount, score, booster⟩ := same
    refine ⟨Hash.ext_val digest, by rw [firstKind, secondKind], claimId, ?_⟩
    intro _
    exact ⟨Address.ext_val user, amount, score, booster⟩
  case cancel.cancel =>
    obtain ⟨digest, claimId⟩ := same
    refine ⟨Hash.ext_val digest, by rw [firstKind, secondKind], claimId, ?_⟩
    intro registers
    rw [firstKind] at registers
    cases registers

/-- The strings hashed while the events are folded. -/
def claimSetStrings (keccak256 : List Byte → Hash) (events : List ClaimEvent) :
    List (List Byte) :=
  rolledTexts keccak256 eventText Hash.zero events

theorem claimSetHash_binds (keccak256 : List Byte → Hash) (first second : List ClaimEvent)
    (text : String) (firstRun : claimSetHash keccak256 first = .ok text)
    (secondRun : claimSetHash keccak256 second = .ok text)
    (collisionFree : CollisionFree keccak256
      (claimSetStrings keccak256 first ++ claimSetStrings keccak256 second))
    (nonzero : ∀ string ∈ claimSetStrings keccak256 first ++ claimSetStrings keccak256 second,
      keccak256 string ≠ Hash.zero) : List.Forall₂ SameCommitted first second := by
  obtain ⟨firstFits, firstText⟩ := (claimSetHash_ok_iff keccak256 first text).mp firstRun
  obtain ⟨secondFits, secondText⟩ := (claimSetHash_ok_iff keccak256 second text).mp secondRun
  apply rollFrom_binds keccak256 eventText Hash.zero SameCommitted first second collisionFree
    nonzero
  · intro event member event' member' before before' same
    apply eventWords_injective
    exact encodeWords_injective _ _ (firstFits event member before)
      (secondFits event' member' before') same
  · exact hashHex_injective (firstText.symm.trans secondText)

/-- The claim-set hash binds the event stream. -/
theorem claim_set_hash_binding (keccak256 : List Byte → Hash) (first second : List ClaimEvent)
    (text : String) (firstRun : claimSetHash keccak256 first = .ok text)
    (secondRun : claimSetHash keccak256 second = .ok text)
    (collisionFree : CollisionFree keccak256
      (claimSetStrings keccak256 first ++ claimSetStrings keccak256 second))
    (nonzero : ∀ string ∈ claimSetStrings keccak256 first ++ claimSetStrings keccak256 second,
      keccak256 string ≠ Hash.zero) :
    first.length = second.length ∧
      (∀ (i : Nat) (event event' : ClaimEvent), first[i]? = some event →
        second[i]? = some event' →
          event.kind = event'.kind ∧ event.claimId = event'.claimId ∧
            (event.kind = .register →
              event.user = event'.user ∧ event.amount = event'.amount ∧
                event.scoreToSpend = event'.scoreToSpend ∧
                event.boosterAmount = event'.boosterAmount)) ∧
      ((∃ event ∈ first, event.kind = .cancel) ↔ ∃ event ∈ second, event.kind = .cancel) := by
  have agree := claimSetHash_binds keccak256 first second text firstRun secondRun collisionFree
    nonzero
  have sameKinds : first.map ClaimEvent.kind = second.map ClaimEvent.kind := by
    rw [← List.forall₂_eq_eq_eq, List.forall₂_map_left_iff, List.forall₂_map_right_iff]
    exact agree.imp fun _ _ same => same.kind
  refine ⟨agree.length_eq, ?_, ?_⟩
  · intro i event event' atFirst atSecond
    obtain ⟨inFirst, rfl⟩ := List.getElem?_eq_some_iff.mp atFirst
    obtain ⟨inSecond, rfl⟩ := List.getElem?_eq_some_iff.mp atSecond
    have same := agree.get inFirst inSecond
    exact ⟨same.kind, same.claimId, same.registration⟩
  · have cancels : ∀ events : List ClaimEvent,
        (∃ event ∈ events, event.kind = .cancel) ↔
          EventKind.cancel ∈ events.map ClaimEvent.kind := by
      intro events
      simp
    rw [cancels, cancels, sameKinds]

/-- The same stream as two observers index it: block positions and the fields of a
cancellation other than its claim are not committed. -/
def observedEvents (block : Nat) (other : Nat) : List ClaimEvent :=
  [⟨.register, 1, SmallDeployment.alice, 400, 90, 2, block, 0⟩,
    ⟨.cancel, 1, SmallDeployment.bob, other, other, other, block, 1⟩]

theorem observedEvents_bound :
    ∃ text, claimSetHash SmallDeployment.platform.keccak256 (observedEvents 7 0) = .ok text ∧
      claimSetHash SmallDeployment.platform.keccak256 (observedEvents 9 5) = .ok text ∧
      (observedEvents 7 0).length = (observedEvents 9 5).length := by
  obtain ⟨text, firstRun⟩ := exists_ok_of_isSome
    (claimSetHash SmallDeployment.platform.keccak256 (observedEvents 7 0))
    (by decide +kernel)
  have same : (claimSetHash SmallDeployment.platform.keccak256 (observedEvents 9 5)).toOption =
      (claimSetHash SmallDeployment.platform.keccak256 (observedEvents 7 0)).toOption := by
    decide +kernel
  have secondRun := ok_of_toOption (same.trans (congrArg Except.toOption firstRun))
  have apart := CollisionFree.of_nodup SmallDeployment.platform.keccak256
    (claimSetStrings SmallDeployment.platform.keccak256 (observedEvents 7 0))
    (claimSetStrings SmallDeployment.platform.keccak256 (observedEvents 9 5))
    (by decide +kernel) (by decide +kernel)
  have bound := claim_set_hash_binding SmallDeployment.platform.keccak256
    (observedEvents 7 0) (observedEvents 9 5) text firstRun secondRun apart
    (by decide +kernel)
  exact ⟨text, firstRun, secondRun, bound.1⟩

/-! ## The settlement inputs -/

/-- The words of the ABI encoding of two parallel arrays. -/
def inputWords (rows : List (Address × Nat)) : List Nat :=
  [64, 96 + rows.length * 32, rows.length] ++ rows.map (fun row => row.1.val) ++
    [rows.length] ++ rows.map Prod.snd

def inputString (rows : List (Address × Nat)) : List Byte :=
  encodeWords (inputWords (sortByUser rows))

theorem inputWords_injective (first second : List (Address × Nat))
    (same : inputWords first = inputWords second) : first = second := by
  unfold inputWords at same
  simp only [List.cons_append, List.nil_append, List.append_assoc, List.cons.injEq,
    true_and] at same
  obtain ⟨-, sameLength, sameRest⟩ := same
  obtain ⟨sameUsers, sameTail⟩ := List.append_inj sameRest (by simpa using sameLength)
  have sameScores := (List.cons.inj sameTail).2
  have usersEq : first.map Prod.fst = second.map Prod.fst := by
    have injective : Function.Injective Address.val := fun _ _ => Address.ext_val
    apply injective.list_map
    rw [List.map_map, List.map_map]
    exact sameUsers
  calc first = (first.map Prod.fst).zip (first.map Prod.snd) := by
        rw [List.zip_map', List.map_id'' (fun _ => rfl)]
    _ = (second.map Prod.fst).zip (second.map Prod.snd) := by rw [usersEq, sameScores]
    _ = second := by rw [List.zip_map', List.map_id'' (fun _ => rfl)]

theorem sortByUser_perm (rows : List (Address × Nat)) : (sortByUser rows).Perm rows :=
  List.perm_insertionSort _ rows

theorem sortByUser_pairwise (rows : List (Address × Nat)) :
    (sortByUser rows).Pairwise fun first second => first.1.val ≤ second.1.val := by
  have total : Std.Total fun first second : Address × Nat => first.1.val ≤ second.1.val :=
    ⟨fun first second => Nat.le_total first.1.val second.1.val⟩
  have transitive : IsTrans (Address × Nat) fun first second => first.1.val ≤ second.1.val :=
    ⟨fun _ _ _ below above => Nat.le_trans below above⟩
  exact List.pairwise_insertionSort _ rows

/-- In a sorted list equal users are neighbours. -/
theorem nodup_of_firstAdjacentDuplicate_none (rows : List (Address × Nat))
    (sorted : rows.Pairwise fun first second => first.1.val ≤ second.1.val)
    (clean : firstAdjacentDuplicate rows = none) : (rows.map Prod.fst).Nodup := by
  have strict : rows.Pairwise fun first second => first.1.val < second.1.val := by
    induction rows with
    | nil => exact List.Pairwise.nil
    | cons first rest ih =>
        rw [List.pairwise_cons] at sorted ⊢
        cases rest with
        | nil => exact ⟨by simp, List.Pairwise.nil⟩
        | cons second rest =>
            rw [firstAdjacentDuplicate] at clean
            split at clean
            · cases clean
            next differ =>
              have restStrict := ih sorted.2 clean
              have below : first.1.val < second.1.val := by
                have notAbove := sorted.1 second (by simp)
                have notEqual : first.1.val ≠ second.1.val :=
                  fun equal => differ (Address.ext_val equal)
                omega
              refine ⟨?_, restStrict⟩
              intro other member
              rcases List.mem_cons.mp member with rfl | later
              · exact below
              · exact Nat.lt_trans below ((List.pairwise_cons.mp restStrict).1 other later)
  rw [List.Nodup, List.pairwise_map]
  exact strict.imp fun below same => by rw [same] at below; exact Nat.lt_irrefl _ below

theorem firstAdjacentDuplicate_sorted_iff (rows : List (Address × Nat)) :
    firstAdjacentDuplicate (sortByUser rows) = none ↔ (rows.map Prod.fst).Nodup := by
  have permuted := (sortByUser_perm rows).map Prod.fst
  constructor
  · intro clean
    exact permuted.nodup_iff.mp
      (nodup_of_firstAdjacentDuplicate_none _ (sortByUser_pairwise rows) clean)
  · intro distinct
    exact firstAdjacentDuplicate_none _ (permuted.nodup_iff.mpr distinct)

theorem inputWords_fit (rows : List (Address × Nat))
    (lengthFits : 96 + rows.length * 32 < usizeBound)
    (scoresFit : ∀ row ∈ rows, row.2 < uintBound 256) :
    ∀ word ∈ inputWords (sortByUser rows), word < uintBound 256 := by
  have wide : usizeBound < uintBound 256 := by norm_num [usizeBound, uintBound]
  have sortedLength := (sortByUser_perm rows).length_eq
  intro word member
  simp only [inputWords, sortedLength, List.mem_append, List.mem_cons, List.not_mem_nil,
    or_false, List.mem_map] at member
  rcases member with
    (((rfl | rfl | rfl) | ⟨row, -, rfl⟩) | rfl) | ⟨row, rowMember, rfl⟩
  · norm_num [uintBound]
  · omega
  · omega
  · exact row.1.val_lt_word
  · omega
  · exact scoresFit row ((sortByUser_perm rows).mem_iff.mp rowMember)

/-- What a call that returns a digest has checked and hashed. -/
theorem settlementInputHash_ok_iff (keccak256 : List Byte → Hash)
    (rows : List (Address × Nat)) (text : String) :
    settlementInputHash keccak256 rows = .ok text ↔
      (rows.map Prod.fst).Nodup ∧ 96 + rows.length * 32 < usizeBound ∧
        (∀ row ∈ rows, row.2 < uintBound 256) ∧
        text = hashHex (keccak256 (inputString rows)) := by
  have sortedLength : (sortByUser rows).length = rows.length := (sortByUser_perm rows).length_eq
  have sameScores : (∀ score ∈ (sortByUser rows).map Prod.snd, score < uintBound 256) ↔
      ∀ row ∈ rows, row.2 < uintBound 256 := by
    rw [List.forall_mem_map]
    exact forall_congr' fun row => by rw [(sortByUser_perm rows).mem_iff]
  rw [← firstAdjacentDuplicate_sorted_iff, ← sameScores]
  cases found : firstAdjacentDuplicate (sortByUser rows) with
  | some user => simp [settlementInputHash, found]
  | none =>
      simp only [settlementInputHash, found, bind_ok_iff, revertIf_ok_iff, uint256Words_ok_iff, pure_ok_iff, exists_const,
        sortedLength, not_le, true_and]
      have assembled : 96 + rows.length * 32 < usizeBound →
          usizeWord 64 ++ usizeWord (96 + rows.length * 32) ++ usizeWord rows.length ++
            (sortByUser rows).flatMap (fun row => abiWord row.1) ++ usizeWord rows.length ++
            encodeWords ((sortByUser rows).map Prod.snd) = inputString rows := by
        intro fits
        have users : (sortByUser rows).flatMap (fun row => abiWord row.1) =
            encodeWords ((sortByUser rows).map fun row => row.1.val) := by
          simp [encodeWords, List.flatMap_map, abiWord_eq_wordBytes]
        rw [usizeWord_eq_wordBytes 64 (by norm_num [usizeBound, uintBound]),
          usizeWord_eq_wordBytes _ fits, usizeWord_eq_wordBytes rows.length (by omega), users]
        simp [inputString, inputWords, encodeWords_append, encodeWords_cons, sortedLength]
      constructor
      · rintro ⟨-, offsetFits, scores, ⟨scoresFit, rfl⟩, rfl⟩
        exact ⟨offsetFits, scoresFit, by rw [assembled offsetFits]⟩
      · rintro ⟨offsetFits, scoresFit, rfl⟩
        exact ⟨by omega, offsetFits, _, ⟨scoresFit, rfl⟩, by rw [assembled offsetFits]⟩

/-- Without equal users the canonical order is the only sorted one. -/
theorem sortByUser_eq_of_perm (rows rows' : List (Address × Nat)) (permuted : rows.Perm rows')
    (distinct : (rows.map Prod.fst).Nodup) : sortByUser rows = sortByUser rows' := by
  have sortedPermuted : (sortByUser rows).Perm (sortByUser rows') :=
    (sortByUser_perm rows).trans (permuted.trans (sortByUser_perm rows').symm)
  apply List.Perm.eq_of_pairwise _ (sortByUser_pairwise rows) (sortByUser_pairwise rows')
    sortedPermuted
  intro first second firstMember secondMember below above
  have sameUser : first.1 = second.1 := Address.ext_val (Nat.le_antisymm below above)
  have inFirst : first ∈ rows := (sortByUser_perm rows).mem_iff.mp firstMember
  have inSecond : second ∈ rows :=
    permuted.mem_iff.mpr ((sortByUser_perm rows').mem_iff.mp secondMember)
  exact List.inj_on_of_nodup_map distinct inFirst inSecond sameUser

/-- Sorting leaves the users of two orders of the same rows equal, place by place. -/
theorem sortByUser_users_eq_of_perm (rows rows' : List (Address × Nat))
    (permuted : rows.Perm rows') :
    (sortByUser rows).map Prod.fst = (sortByUser rows').map Prod.fst := by
  have usersPermuted : ((sortByUser rows).map Prod.fst).Perm ((sortByUser rows').map Prod.fst) :=
    ((sortByUser_perm rows).trans (permuted.trans (sortByUser_perm rows').symm)).map Prod.fst
  have ordered : ∀ rows : List (Address × Nat),
      ((sortByUser rows).map Prod.fst).Pairwise fun first second => first.val ≤ second.val :=
    fun rows => List.pairwise_map.mpr (sortByUser_pairwise rows)
  apply List.Perm.eq_of_pairwise _ (ordered rows) (ordered rows') usersPermuted
  intro first second _ _ below above
  exact Address.ext_val (Nat.le_antisymm below above)

theorem firstAdjacentDuplicate_congr : ∀ rows rows' : List (Address × Nat),
    rows.map Prod.fst = rows'.map Prod.fst →
      firstAdjacentDuplicate rows = firstAdjacentDuplicate rows' := by
  intro rows
  induction rows with
  | nil =>
      intro rows' same
      rw [List.map_eq_nil_iff.mp (same.symm)]
  | cons first rest ih =>
      intro rows' same
      cases rows' with
      | nil => simp at same
      | cons first' rest' =>
          rw [List.map_cons, List.map_cons, List.cons.injEq] at same
          obtain ⟨sameFirst, sameRest⟩ := same
          cases rest with
          | nil =>
              rw [List.map_eq_nil_iff.mp sameRest.symm]
              rfl
          | cons second rest =>
              cases rest' with
              | nil => simp at sameRest
              | cons second' rest' =>
                  have sameSecond := (List.cons.inj sameRest).1
                  rw [firstAdjacentDuplicate, firstAdjacentDuplicate, sameFirst, sameSecond,
                    ih _ sameRest]

/-- The result, an error included, does not depend on the order of the rows. -/
theorem settlementInputHash_perm (keccak256 : List Byte → Hash)
    (rows rows' : List (Address × Nat)) (permuted : rows.Perm rows') :
    settlementInputHash keccak256 rows = settlementInputHash keccak256 rows' := by
  by_cases distinct : (rows.map Prod.fst).Nodup
  · unfold settlementInputHash
    rw [sortByUser_eq_of_perm rows rows' permuted distinct]
  · have sameDuplicate := firstAdjacentDuplicate_congr _ _
      (sortByUser_users_eq_of_perm rows rows' permuted)
    unfold settlementInputHash
    cases found : firstAdjacentDuplicate (sortByUser rows) with
    | none => exact absurd ((firstAdjacentDuplicate_sorted_iff rows).mp found) distinct
    | some user => simp [← sameDuplicate, found]

/-- A slice of 48-byte rows, which `isize::MAX` bytes bound. -/
abbrev InputRows := { rows : List (Address × Nat) // rows.length * 48 < uintBound 63 }

theorem settlementInputHash_fails_iff (keccak256 : List Byte → Hash) (rows : InputRows) :
    (∃ error, settlementInputHash keccak256 rows.val = .error error) ↔
      ¬ (rows.val.map Prod.fst).Nodup ∨ ∃ row ∈ rows.val, 2 ^ 256 ≤ row.2 := by
  have offsetFits : 96 + rows.val.length * 32 < usizeBound := by
    have bound := rows.property
    norm_num [usizeBound, uintBound] at bound ⊢
    omega
  have returns := settlementInputHash_ok_iff keccak256 rows.val
  constructor
  · rintro ⟨error, failed⟩
    by_contra accepted
    push Not at accepted
    have ran := (returns _).mpr ⟨accepted.1, offsetFits, accepted.2, rfl⟩
    rw [failed] at ran
    cases ran
  · intro refused
    cases run : settlementInputHash keccak256 rows.val with
    | error error => exact ⟨error, rfl⟩
    | ok text =>
        obtain ⟨distinct, -, scoresFit, -⟩ := (returns text).mp run
        rcases refused with duplicate | ⟨row, member, overflow⟩
        · exact absurd distinct duplicate
        · exact absurd (scoresFit row member) (Nat.not_lt.mpr overflow)

/-- The settlement-input hash is a set commitment. -/
theorem settlement_input_hash_commits_set (keccak256 : List Byte → Hash) :
    (∀ rows : InputRows,
      (∃ error, settlementInputHash keccak256 rows.val = .error error) ↔
        ¬ (rows.val.map Prod.fst).Nodup ∨ ∃ row ∈ rows.val, 2 ^ 256 ≤ row.2) ∧
    (∀ rows rows' : List (Address × Nat), rows.Perm rows' →
      settlementInputHash keccak256 rows = settlementInputHash keccak256 rows') ∧
    ∀ (rows rows' : List (Address × Nat)) (text text' : String),
      settlementInputHash keccak256 rows = .ok text →
      settlementInputHash keccak256 rows' = .ok text' →
      CollisionFree keccak256 [inputString rows, inputString rows'] →
        (text = text' ↔ rows.Perm rows') := by
  refine ⟨settlementInputHash_fails_iff keccak256, settlementInputHash_perm keccak256, ?_⟩
  intro rows rows' text text' run run' collisionFree
  constructor
  · intro sameText
    obtain ⟨distinct, fits, scoresFit, textEq⟩ :=
      (settlementInputHash_ok_iff keccak256 rows text).mp run
    obtain ⟨distinct', fits', scoresFit', textEq'⟩ :=
      (settlementInputHash_ok_iff keccak256 rows' text').mp run'
    rw [textEq, textEq'] at sameText
    have sameString : inputString rows = inputString rows' :=
      collisionFree (by simp) (by simp) (hashHex_injective sameText)
    have sameWords : inputWords (sortByUser rows) = inputWords (sortByUser rows') :=
      encodeWords_injective _ _ (inputWords_fit rows fits scoresFit)
        (inputWords_fit rows' fits' scoresFit') sameString
    have sameSorted := inputWords_injective _ _ sameWords
    exact (sortByUser_perm rows).symm.trans (sameSorted ▸ sortByUser_perm rows')
  · intro permuted
    rw [settlementInputHash_perm keccak256 rows rows' permuted, run'] at run
    exact (Except.ok.inj run).symm

/-- The settlement inputs of the small deployment, in the order they are listed. -/
def smallInputRows : List (Address × Nat) :=
  [(SmallDeployment.bob, 80), (SmallDeployment.alice, 100)]

theorem smallInputRows_commit :
    ∃ text, settlementInputHash SmallDeployment.platform.keccak256 smallInputRows = .ok text ∧
      settlementInputHash SmallDeployment.platform.keccak256 smallInputRows.reverse =
        .ok text ∧
      smallInputRows.Perm smallInputRows.reverse := by
  obtain ⟨text, firstRun⟩ := exists_ok_of_isSome
    (settlementInputHash SmallDeployment.platform.keccak256 smallInputRows)
    (by decide +kernel)
  have same : (settlementInputHash SmallDeployment.platform.keccak256
      smallInputRows.reverse).toOption =
      (settlementInputHash SmallDeployment.platform.keccak256 smallInputRows).toOption := by
    decide +kernel
  have secondRun := ok_of_toOption (same.trans (congrArg Except.toOption firstRun))
  obtain ⟨-, -, binds⟩ :=
    settlement_input_hash_commits_set SmallDeployment.platform.keccak256
  have apart := CollisionFree.of_nodup SmallDeployment.platform.keccak256
    [inputString smallInputRows] [inputString smallInputRows.reverse] (List.nodup_singleton _)
    (by decide +kernel)
  exact ⟨text, firstRun, secondRun, (binds _ _ text text firstRun secondRun apart).mp rfl⟩

end Usd8Core.Settlement
