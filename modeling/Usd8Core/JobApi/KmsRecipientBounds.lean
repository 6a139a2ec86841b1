import Usd8Core.JobApi.KmsRecipientCms

/-!
# The envelope reader stays inside its input

An element that was read lies inside the slice and takes at least two octets.  So every
loop makes progress and every slice taken exists: on no input does the reader panic or
fail to end.
-/

set_option autoImplicit false

namespace Usd8Core.JobApi.KmsRecipientCms

open Usd8Core.Lib.CheckedCall Usd8Core.Lib.ByteWords

/-! ## Slices -/

theorem getRange_some {input part : List Byte} {start stop : Nat}
    (found : getRange input start stop = some part) :
    start ≤ stop ∧ stop ≤ input.length ∧ part.length = stop - start := by
  unfold getRange at found
  split at found
  · rename_i inside
    cases found
    refine ⟨inside.1, inside.2, ?_⟩
    rw [List.length_take, List.length_drop]
    omega
  · cases found

theorem getRange_inside (input : List Byte) {start stop : Nat} (ordered : start ≤ stop)
    (inside : stop ≤ input.length) : ∃ part, getRange input start stop = some part := by
  unfold getRange
  rw [if_pos ⟨ordered, inside⟩]
  exact ⟨_, rfl⟩

theorem slice_length {input part : List Byte} {start stop : Nat}
    (taken : slice input start stop = .ok part) :
    start ≤ stop ∧ stop ≤ input.length ∧ part.length = stop - start :=
  getRange_some ((orRevert_ok_iff _ _ _).mp taken)

theorem addOr_ok {a b sum : Nat} (added : addOr a b = .ok sum) : sum = a + b := by
  unfold addOr at added
  split at added
  · exact (Except.ok.inj added).symm
  · cases added

theorem avoids_addOr (a b : Nat) : Avoids CmsFailure.Abnormal (addOr a b) := by
  unfold addOr
  apply avoids_ite
  · intro fits
    exact avoids_ok _
  · intro large
    exact avoids_error _ not_false

theorem avoids_slice {input : List Byte} {start stop : Nat} (ordered : start ≤ stop)
    (inside : stop ≤ input.length) : Avoids CmsFailure.Abnormal (slice input start stop) := by
  obtain ⟨part, found⟩ := getRange_inside input ordered inside
  unfold slice
  rw [found]
  exact avoids_ok part

/-- A cursor inside a slice is far from the end of the machine word. -/
theorem avoids_cursorAdd {a b : Nat} (fits : a + b < uintBound 64) :
    Avoids CmsFailure.Abnormal (checkedAdd 64 a b) := by
  unfold checkedAdd
  rw [if_pos fits]
  exact avoids_ok _

/-! ## What a read element is -/

/-- The element lies between `offset` and `next`, inside the input. -/
structure Within (input : List Byte) (offset : Nat) (read : Tlv × Nat) : Prop where
  progress : offset + 1 < read.2
  inside : read.2 ≤ input.length
  content : read.1.content.length ≤ input.length

theorem findEnd_within (input : List Byte) (parse : Nat → Except CmsFailure (Tlv × Nat))
    (nested : ∀ cursor read, parse cursor = .ok read → Within input cursor read) :
    ∀ (rounds cursor contentEnd next : Nat),
      findEnd input parse rounds cursor = .ok (contentEnd, next) →
        cursor ≤ contentEnd ∧ contentEnd ≤ next ∧ contentEnd + 2 = next ∧
          next ≤ input.length := by
  intro rounds
  induction rounds with
  | zero =>
      intro cursor contentEnd next run
      cases run
  | succ rounds ih =>
      intro cursor contentEnd next run
      simp only [findEnd, bind_ok_iff, checkedAdd_ok_iff] at run
      obtain ⟨past, ⟨-, rfl⟩, run⟩ := run
      split at run
      · rename_i closed
        simp only [pure_ok_iff, Prod.mk.injEq] at run
        obtain ⟨rfl, rfl⟩ := run
        have inside := (getRange_some closed).2.1
        omega
      · obtain ⟨read, parsed, run⟩ := (bind_ok_iff _ _ _).mp run
        have moved := (nested cursor read parsed).progress
        have rest := ih read.2 contentEnd next run
        omega

theorem definiteLength_header {input : List Byte} {lengthOffset : Nat} {first : Byte}
    {length headerBytes : Nat}
    (read : definiteLength input lengthOffset first = .ok (length, headerBytes)) :
    1 ≤ headerBytes := by
  unfold definiteLength at read
  split at read
  · simp only [pure_ok_iff, Prod.mk.injEq] at read
    omega
  · simp only [bind_ok_iff, pure_ok_iff, Prod.mk.injEq] at read
    obtain ⟨-, -, -, -, -, -, -, -, -, -, -, -, -, -, -, rfl⟩ := read
    omega

theorem parseTlv_within (input : List Byte) :
    ∀ (levels offset : Nat) (read : Tlv × Nat),
      parseTlv input levels offset = .ok read → Within input offset read := by
  intro levels
  induction levels with
  | zero =>
      intro offset read run
      cases run
  | succ levels ih =>
      intro offset read run
      simp only [parseTlv, bind_ok_iff, revertIf_ok_iff, orRevert_ok_iff] at run
      obtain ⟨-, -, tag, -, -, -, lengthOffset, lengthRead, first, -, run⟩ := run
      have lengthAt := addOr_ok lengthRead
      split at run
      · simp only [bind_ok_iff, revertIf_ok_iff, checkedAdd_ok_iff, pure_ok_iff,
          Prod.exists] at run
        obtain ⟨-, -, contentStart, ⟨-, startAt⟩, contentEnd, next, ended, content, sliced,
          rfl⟩ := run
        obtain ⟨ordered, -, closed, inside⟩ :=
          findEnd_within input (parseTlv input levels) ih _ _ _ _ ended
        have taken := slice_length sliced
        constructor <;> simp only <;> omega
      · simp only [bind_ok_iff, revertIf_ok_iff, pure_ok_iff, Prod.exists] at run
        obtain ⟨length, headerBytes, lengthRead, contentStart, startRead, contentEnd, endRead,
          -, small, content, sliced, rfl⟩ := run
        have startAt := addOr_ok startRead
        have endAt := addOr_ok endRead
        have header := definiteLength_header lengthRead
        have taken := slice_length sliced
        constructor <;> simp only <;> omega

/-- `parse_tlv_at` moves on by at least two octets and never past the input. -/
theorem parseTlvAt_within {input : List Byte} {offset depth : Nat} {read : Tlv × Nat}
    (run : parseTlvAt input offset depth = .ok read) : Within input offset read :=
  parseTlv_within input _ offset read run

/-! ## Normal ends -/

/-- Every slice is shorter than half the address space. -/
def Addressable (input : List Byte) : Prop := input.length < uintBound 63

theorem avoids_findEnd {input : List Byte} {parse : Nat → Except CmsFailure (Tlv × Nat)}
    (addressable : Addressable input)
    (nested : ∀ cursor read, parse cursor = .ok read → Within input cursor read)
    (normal : ∀ cursor, Avoids CmsFailure.Abnormal (parse cursor)) :
    ∀ (rounds cursor : Nat), cursor ≤ input.length + 1 → input.length + 1 < rounds + cursor →
      Avoids CmsFailure.Abnormal (findEnd input parse rounds cursor) := by
  intro rounds
  induction rounds with
  | zero =>
      intro cursor inside enough
      omega
  | succ rounds ih =>
      intro cursor inside enough
      unfold findEnd
      apply avoids_bind
      · apply avoids_cursorAdd
        simp only [Addressable, uintBound] at addressable ⊢
        omega
      intro next added
      apply avoids_ite
      · intro closed
        exact avoids_pure _
      · intro more
        apply avoids_bind _ _ (normal cursor)
        intro read parsed
        have moved := nested cursor read parsed
        apply ih
        · have bound := moved.inside
          omega
        · have progress := moved.progress
          omega

theorem avoids_appendOctet (length : Nat) (byte : Byte) :
    Avoids CmsFailure.Abnormal (appendOctet length byte) := by
  unfold appendOctet
  apply avoids_ite
  · intro fits
    exact avoids_addOr _ _
  · intro large
    exact avoids_error _ not_false

theorem avoids_definiteLength {input : List Byte} (addressable : Addressable input)
    {lengthOffset : Nat} (inside : lengthOffset ≤ input.length) (first : Byte) :
    Avoids CmsFailure.Abnormal (definiteLength input lengthOffset first) := by
  simp only [Addressable, uintBound] at addressable
  unfold definiteLength
  apply avoids_ite
  · intro short
    exact avoids_pure _
  · intro long
    apply avoids_revertIf_bind _ _ _ fun _ => not_false
    intro counted
    apply avoids_bind
    · apply avoids_cursorAdd
      simp only [uintBound]
      omega
    intro start added
    obtain ⟨-, rfl⟩ := (checkedAdd_ok_iff _ _ _ _).mp added
    apply avoids_bind
    · apply avoids_cursorAdd
      simp only [uintBound]
      omega
    intro stop added
    obtain ⟨-, rfl⟩ := (checkedAdd_ok_iff _ _ _ _).mp added
    apply avoids_bind _ _ (avoids_orRevert _ _ fun _ => not_false)
    intro lengthBytes taken
    have size := getRange_some ((orRevert_ok_iff _ _ _).mp taken)
    apply avoids_bind
    · apply avoids_orRevert
      intro missing
      rw [List.getElem?_eq_none_iff] at missing
      omega
    intro leading _
    apply avoids_revertIf_bind _ _ _ fun _ => not_false
    intro _
    apply avoids_bind
    · exact avoids_foldlM appendOctet (fun _ => True) (fun _ _ _ _ _ => trivial)
        (fun length byte _ => avoids_appendOctet length byte) _ _ trivial
    intro length _
    exact avoids_pure _

theorem avoids_parseTlv {input : List Byte} (addressable : Addressable input) :
    ∀ (levels offset : Nat), Avoids CmsFailure.Abnormal (parseTlv input levels offset) := by
  intro levels
  induction levels with
  | zero =>
      intro offset
      exact avoids_error _ not_false
  | succ levels ih =>
      intro offset
      unfold parseTlv
      apply avoids_revertIf_bind _ _ _ fun _ => not_false
      intro inside
      apply avoids_bind
      · apply avoids_orRevert
        intro missing
        rw [List.getElem?_eq_none_iff] at missing
        exact absurd missing inside
      intro tag _
      apply avoids_revertIf_bind _ _ _ fun _ => not_false
      intro _
      apply avoids_bind _ _ (avoids_addOr _ _)
      intro lengthOffset added
      have lengthAt := addOr_ok added
      apply avoids_bind _ _ (avoids_orRevert _ _ fun _ => not_false)
      intro first _
      apply avoids_ite
      · intro indefinite
        apply avoids_revertIf_bind _ _ _ fun _ => not_false
        intro _
        apply avoids_bind
        · apply avoids_cursorAdd
          simp only [Addressable, uintBound] at addressable ⊢
          omega
        intro contentStart added
        obtain ⟨-, startAt⟩ := (checkedAdd_ok_iff _ _ _ _).mp added
        apply avoids_bind
        · apply avoids_findEnd addressable (parseTlv_within input levels) ih
          · omega
          · omega
        intro ends ended
        have bounds := findEnd_within input _ (parseTlv_within input levels) _ _ _ _ ended
        apply avoids_bind _ _ (avoids_slice (by omega) (by omega))
        intro content _
        exact avoids_pure _
      · intro definite
        apply avoids_bind _ _ (avoids_definiteLength addressable (by omega) first)
        intro lengthRead _
        apply avoids_bind _ _ (avoids_addOr _ _)
        intro contentStart _
        apply avoids_bind _ _ (avoids_addOr _ _)
        intro contentEnd added
        have endAt := addOr_ok added
        apply avoids_revertIf_bind _ _ _ fun _ => not_false
        intro small
        apply avoids_bind _ _ (avoids_slice (by omega) (by omega))
        intro content _
        exact avoids_pure _

/-! ## The readers of the structure

Every reader below works on the message or on the content of one of its elements. -/

/-- A call that ends normally, with a value that meets `post`. -/
def Ends {α : Type} (post : α → Prop) (call : Except CmsFailure α) : Prop :=
  Avoids CmsFailure.Abnormal call ∧ Returns post call

section Ends

variable {α β : Type} {post : α → Prop} {final : β → Prop}

theorem ends_bind {call : Except CmsFailure α} {next : α → Except CmsFailure β}
    (first : Ends post call) (rest : ∀ value, post value → Ends final (next value)) :
    Ends final (call >>= next) := by
  constructor
  · apply avoids_bind _ _ first.1
    intro value ran
    exact (rest value (first.2 value ran)).1
  · apply returns_bind
    intro value ran
    exact (rest value (first.2 value ran)).2

theorem ends_pure {value : α} (holds : post value) :
    Ends post (pure value : Except CmsFailure α) :=
  ⟨avoids_pure value, returns_pure holds⟩

theorem ends_error (text : String) :
    Ends post (.error (.error text) : Except CmsFailure α) := by
  constructor
  · exact avoids_error _ not_false
  · intro result impossible
    cases impossible

/-- A check of the parser's own, and what follows it. -/
theorem ends_check {condition : Prop} [Decidable condition] {text : String}
    {next : Unit → Except CmsFailure β} (rest : Ends final (next ())) :
    Ends final (revertIf condition (.error text) >>= next) := by
  unfold revertIf
  split
  · exact ends_error text
  · exact rest

theorem ends_last {condition : Prop} [Decidable condition] {text : String} :
    Ends (fun _ => True) (revertIf condition (CmsFailure.error text)) := by
  unfold revertIf
  split
  · exact ends_error text
  · exact ends_pure trivial

theorem ends_ite {condition : Prop} [Decidable condition] {first second : Except CmsFailure α}
    (whenTrue : condition → Ends post first) (whenFalse : ¬ condition → Ends post second) :
    Ends post (if condition then first else second) := by
  split
  · exact whenTrue ‹_›
  · exact whenFalse ‹_›

end Ends

def Small (input : List Byte) : Prop := input.length ≤ MAX_CMS_BYTES

theorem Small.addressable {input : List Byte} (small : Small input) : Addressable input := by
  simp only [Small, MAX_CMS_BYTES] at small
  simp only [Addressable, uintBound]
  omega

namespace Reader

variable {input : List Byte} {reader : Reader}

/-- The reader stands inside the input. -/
structure On (input : List Byte) (reader : Reader) : Prop where
  same : reader.input = input
  inside : reader.offset ≤ input.length

theorem on_new (input : List Byte) : (new input).On input :=
  ⟨rfl, Nat.zero_le _⟩

/-- Reading moves on in the same input and gives a small content. -/
structure Advanced (input : List Byte) (offset : Nat) (read : Tlv × Reader) : Prop where
  content : Small read.1.content
  reader : read.2.On input
  progress : offset < read.2.offset

theorem read_ends (small : Small input) (on : reader.On input) :
    Ends (Advanced input reader.offset) reader.read := by
  obtain ⟨input, offset⟩ := reader
  obtain ⟨rfl, inside⟩ := on
  unfold read
  have parsed : Ends (Within input offset) (parseTlvAt input offset 0) := by
    constructor
    · exact avoids_parseTlv small.addressable _ _
    · intro read run
      exact parseTlvAt_within run
  apply ends_bind parsed
  intro read within
  have progress := within.progress
  apply ends_pure
  constructor
  · exact within.content.trans small
  · exact ⟨rfl, within.inside⟩
  · simp only
    omega

theorem expect_ends (small : Small input) (on : reader.On input) (tag : Byte) :
    Ends (Advanced input reader.offset) (reader.expect tag) := by
  unfold expect
  apply ends_bind (read_ends small on)
  intro read advanced
  apply ends_check
  exact ends_pure advanced

end Reader

section Structure

variable {input : List Byte} {reader : Reader}

theorem expectOid_ends (small : Small input) (on : reader.On input) (expected : List Byte) :
    Ends (Reader.On input) (expectOid reader expected) := by
  unfold expectOid
  apply ends_bind (Reader.expect_ends small on _)
  intro read advanced
  apply ends_check
  exact ends_pure advanced.reader

theorem expectVersion_ends (small : Small input) (on : reader.On input) (expected : Byte) :
    Ends (Reader.On input) (expectVersion reader expected) := by
  unfold expectVersion
  apply ends_bind (Reader.expect_ends small on _)
  intro read advanced
  apply ends_check
  exact ends_pure advanced.reader

theorem collectRounds_ends {nested : List Byte → List Byte → Except CmsFailure (List Byte)}
    (normal : ∀ input output, Small input → Ends (fun _ => True) (nested input output))
    (small : Small input) :
    ∀ (rounds : Nat) (reader : Reader) (output : List Byte), reader.On input →
      input.length < rounds + reader.offset →
        Ends (fun _ => True) (collectRounds nested rounds reader output) := by
  intro rounds
  induction rounds with
  | zero =>
      intro reader output on enough
      have inside := on.inside
      omega
  | succ rounds ih =>
      intro reader output on enough
      unfold collectRounds
      apply ends_ite
      · intro finished
        exact ends_pure trivial
      · intro more
        apply ends_bind (Reader.read_ends small on)
        intro read advanced
        refine ends_bind (?_ : Ends (fun _ => True) _) ?_
        · apply ends_ite
          · intro primitive
            exact ends_pure trivial
          · intro other
            apply ends_ite
            · intro constructed
              exact normal _ _ advanced.content
            · intro unknown
              exact ends_error _
        intro output _
        apply ends_check
        have progress := advanced.progress
        exact ih _ _ advanced.reader (by omega)

theorem collectStrings_ends :
    ∀ (levels : Nat) (input output : List Byte), Small input →
      Ends (fun _ => True) (collectStrings levels input output) := by
  intro levels
  induction levels with
  | zero =>
      intro input output small
      exact ends_error _
  | succ levels ih =>
      intro input output small
      unfold collectStrings
      apply collectRounds_ends ih small _ _ _ (Reader.on_new input)
      simp only [Reader.new]
      omega

theorem ciphertextRounds_ends (small : Small input) :
    ∀ (rounds : Nat) (reader : Reader) (ciphertext : List Byte), reader.On input →
      input.length < rounds + reader.offset →
        Ends (fun _ => True) (ciphertextRounds rounds reader ciphertext) := by
  intro rounds
  induction rounds with
  | zero =>
      intro reader ciphertext on enough
      have inside := on.inside
      omega
  | succ rounds ih =>
      intro reader ciphertext on enough
      unfold ciphertextRounds
      apply ends_ite
      · intro finished
        exact ends_pure trivial
      · intro more
        apply ends_bind (Reader.read_ends small on)
        intro read advanced
        refine ends_bind (?_ : Ends (fun _ => True) _) ?_
        · apply ends_ite
          · intro primitive
            exact ends_pure trivial
          · intro other
            apply ends_ite
            · intro constructed
              exact collectStrings_ends _ _ _ advanced.content
            · intro unknown
              exact ends_error _
        intro ciphertext _
        have progress := advanced.progress
        exact ih _ _ advanced.reader (by omega)

theorem expectSha256AlgorithmIdentifier_ends (small : Small input) :
    Ends (fun _ => True) (expectSha256AlgorithmIdentifier input) := by
  unfold expectSha256AlgorithmIdentifier
  apply ends_bind (expectOid_ends small (Reader.on_new input) _)
  intro algorithm on
  apply ends_bind (Reader.expect_ends small on _)
  intro null advanced
  exact ends_last

theorem expectEmptyLabel_ends (small : Small input) (on : reader.On input) :
    Ends (Reader.On input) (expectEmptyLabel reader) := by
  unfold expectEmptyLabel
  apply ends_ite
  · intro labelled
    apply ends_bind (Reader.expect_ends small on _)
    intro sourceContext advanced
    apply ends_bind (Reader.expect_ends advanced.content (Reader.on_new _) _)
    intro sourceAlgorithm algorithmAdvanced
    apply ends_check
    apply ends_bind (expectOid_ends algorithmAdvanced.content (Reader.on_new _) _)
    intro sourceAlgorithmReader sourceOn
    apply ends_bind (Reader.expect_ends algorithmAdvanced.content sourceOn _)
    intro label labelAdvanced
    apply ends_check
    exact ends_pure advanced.reader
  · intro unlabelled
    exact ends_pure on

theorem expectOaepSha256Parameters_ends (small : Small input) (on : reader.On input) :
    Ends (fun _ => True) (expectOaepSha256Parameters reader) := by
  unfold expectOaepSha256Parameters
  apply ends_bind (Reader.expect_ends small on _)
  intro parameters parametersRead
  apply ends_check
  apply ends_bind (Reader.expect_ends parametersRead.content (Reader.on_new _) _)
  intro hashContext hashRead
  apply ends_bind (Reader.expect_ends hashRead.content (Reader.on_new _) _)
  intro hashAlgorithm hashAlgorithmRead
  apply ends_check
  apply ends_bind (expectSha256AlgorithmIdentifier_ends hashAlgorithmRead.content)
  intro _ _
  apply ends_bind (Reader.expect_ends parametersRead.content hashRead.reader _)
  intro mgfContext mgfRead
  apply ends_bind (Reader.expect_ends mgfRead.content (Reader.on_new _) _)
  intro mgfAlgorithm mgfAlgorithmRead
  apply ends_check
  apply ends_bind (expectOid_ends mgfAlgorithmRead.content (Reader.on_new _) _)
  intro mgfAlgorithmReader mgfOn
  apply ends_bind (Reader.expect_ends mgfAlgorithmRead.content mgfOn _)
  intro mgfHashAlgorithm mgfHashRead
  apply ends_check
  apply ends_bind (expectSha256AlgorithmIdentifier_ends mgfHashRead.content)
  intro _ _
  apply ends_bind (expectEmptyLabel_ends parametersRead.content mgfRead.reader)
  intro parametersReader parametersOn
  exact ends_last

theorem recipientKey_ends (small : Small input) :
    Ends (fun _ => True) (recipientKey input) := by
  unfold recipientKey
  apply ends_bind (expectVersion_ends small (Reader.on_new _) _)
  intro recipientReader recipientOn
  apply ends_bind (Reader.read_ends small recipientOn)
  intro rid ridRead
  apply ends_bind (Reader.expect_ends small ridRead.reader _)
  intro keyAlgorithm keyAlgorithmRead
  apply ends_bind (expectOid_ends keyAlgorithmRead.content (Reader.on_new _) _)
  intro keyAlgorithmReader keyAlgorithmOn
  apply ends_bind (expectOaepSha256Parameters_ends keyAlgorithmRead.content keyAlgorithmOn)
  intro _ _
  apply ends_bind (Reader.expect_ends small keyAlgorithmRead.reader _)
  intro encryptedKey encryptedKeyRead
  apply ends_check
  exact ends_pure trivial

theorem encryptedContent_ends (small : Small input) :
    Ends (fun _ => True) (encryptedContent input) := by
  unfold encryptedContent
  apply ends_bind (expectOid_ends small (Reader.on_new _) _)
  intro encryptedContentReader contentOn
  apply ends_bind (Reader.expect_ends small contentOn _)
  intro contentAlgorithm contentAlgorithmRead
  apply ends_bind (expectOid_ends contentAlgorithmRead.content (Reader.on_new _) _)
  intro contentAlgorithmReader algorithmOn
  apply ends_bind (Reader.expect_ends contentAlgorithmRead.content algorithmOn _)
  intro iv ivRead
  apply ends_check
  apply ends_bind (ciphertextRounds_ends small _ _ _ contentAlgorithmRead.reader (by omega))
  intro ciphertext _
  apply ends_check
  exact ends_pure trivial

theorem skipOriginatorInfo_ends (small : Small input) (on : reader.On input) :
    Ends (Reader.On input) (skipOriginatorInfo reader) := by
  unfold skipOriginatorInfo
  apply ends_ite
  · intro present
    apply ends_bind (Reader.read_ends small on)
    intro originatorInfo advanced
    exact ends_pure advanced.reader
  · intro absent
    exact ends_pure on

end Structure

/-- On every byte string the parser ends, with an envelope or with an error of its own. -/
theorem avoids_parseKmsRecipientCms (input : List Byte) :
    Avoids CmsFailure.Abnormal (parseKmsRecipientCms input) := by
  unfold parseKmsRecipientCms
  apply avoids_revertIf_bind _ _ _ fun _ => not_false
  intro sized
  have small : Small input := by
    simp only [Small]
    omega
  refine And.left (?_ : Ends (fun _ => True) _)
  apply ends_bind (Reader.expect_ends small (Reader.on_new _) _)
  intro outer outerRead
  apply ends_check
  apply ends_bind (expectOid_ends outerRead.content (Reader.on_new _) _)
  intro contentInfo contentInfoOn
  apply ends_bind (Reader.expect_ends outerRead.content contentInfoOn _)
  intro explicitContext explicitRead
  apply ends_check
  apply ends_bind (Reader.expect_ends explicitRead.content (Reader.on_new _) _)
  intro enveloped envelopedRead
  apply ends_check
  apply ends_bind (expectVersion_ends envelopedRead.content (Reader.on_new _) _)
  intro envelopedReader versionOn
  apply ends_bind (skipOriginatorInfo_ends envelopedRead.content versionOn)
  intro envelopedReader envelopedOn
  apply ends_bind (Reader.expect_ends envelopedRead.content envelopedOn _)
  intro recipientSet setRead
  apply ends_bind (Reader.expect_ends setRead.content (Reader.on_new _) _)
  intro recipient recipientRead
  apply ends_check
  apply ends_bind (recipientKey_ends recipientRead.content)
  intro encryptedKey _
  apply ends_bind (Reader.expect_ends envelopedRead.content setRead.reader _)
  intro encryptedContentInfo infoRead
  apply ends_check
  apply ends_bind (encryptedContent_ends infoRead.content)
  intro content _
  exact ends_pure trivial

end Usd8Core.JobApi.KmsRecipientCms
