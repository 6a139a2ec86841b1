import Usd8Core.JobApi.KmsRecipientEncoding

/-!
# Parsing inverts the encodings of an envelope

A reader that stands before an encoded element gives back its tag and content and stands
behind it.  Following the grammar, the parser returns the key, the IV and the ciphertext
that were encoded.
-/

set_option autoImplicit false

namespace Usd8Core.JobApi.KmsRecipientCms

open Usd8Core.Lib.CheckedCall Usd8Core.Lib.ByteWords Usd8Core.Lib.Ber

/-- The call returns, with a value that meets `post`. -/
def Gives {α : Type} (post : α → Prop) (call : Except CmsFailure α) : Prop :=
  ∃ value, call = .ok value ∧ post value

section Gives

variable {α β : Type} {post : α → Prop} {final : β → Prop}

theorem gives_bind {call : Except CmsFailure α} {next : α → Except CmsFailure β}
    (first : Gives post call) (rest : ∀ value, post value → Gives final (next value)) :
    Gives final (call >>= next) := by
  obtain ⟨value, ran, holds⟩ := first
  rw [bind_after ran]
  exact rest value holds

theorem gives_pure {value : α} (holds : post value) :
    Gives post (pure value : Except CmsFailure α) :=
  ⟨value, rfl, holds⟩

theorem gives_check {condition : Prop} [Decidable condition] {failure : CmsFailure}
    {next : Unit → Except CmsFailure β} (passes : ¬ condition)
    (rest : Gives final (next ())) : Gives final (revertIf condition failure >>= next) := by
  unfold revertIf
  rw [if_neg passes]
  exact rest

theorem gives_last {condition : Prop} [Decidable condition] {failure : CmsFailure}
    (passes : ¬ condition) : Gives (fun _ => True) (revertIf condition failure) := by
  unfold revertIf
  rw [if_neg passes]
  exact ⟨(), rfl, trivial⟩

end Gives

namespace Reader

variable {reader : Reader} {rest : List Byte}

/-- The reader stands before `rest`, the end of its input. -/
structure Before (rest : List Byte) (reader : Reader) : Prop where
  split : ∃ before, reader.input = before ++ rest ∧ reader.offset = before.length
  small : Small reader.input

theorem before_new {input : List Byte} (small : Small input) : (new input).Before input :=
  ⟨⟨[], rfl, rfl⟩, small⟩

theorem Before.isEmpty (before : reader.Before []) : reader.isEmpty = true := by
  obtain ⟨⟨start, whole, position⟩, -⟩ := before
  simp [Reader.isEmpty, whole, position]

theorem Before.not_isEmpty {tag : Byte} {content encoding : List Byte} {levels : Nat}
    (before : reader.Before (encoding ++ rest)) (element : Element levels tag content encoding) :
    reader.isEmpty = false := by
  obtain ⟨⟨start, whole, position⟩, -⟩ := before
  have taken := element.length_le
  simp only [Reader.isEmpty, whole, position, List.length_append, beq_eq_false_iff_ne]
  omega

theorem Before.peekTag {tag : Byte} {content encoding : List Byte} {levels : Nat}
    (before : reader.Before (encoding ++ rest)) (element : Element levels tag content encoding) :
    reader.peekTag = some tag := by
  obtain ⟨⟨start, whole, position⟩, -⟩ := before
  obtain ⟨-, second, more, rfl⟩ := element.head
  simp [Reader.peekTag, whole, position]

theorem Before.peekTag_nil (before : reader.Before []) : reader.peekTag = none := by
  obtain ⟨⟨start, whole, position⟩, -⟩ := before
  simp [Reader.peekTag, whole, position]

theorem Before.length_le (before : reader.Before rest) : rest.length ≤ MAX_CMS_BYTES := by
  obtain ⟨⟨start, whole, -⟩, small⟩ := before
  simp only [Small, whole, List.length_append] at small
  omega

/-- What reading the element gives: its tag, its content, and the reader behind it. -/
structure ReadBack (tag : Byte) (content rest : List Byte) (read : Tlv × Reader) : Prop where
  value : read.1 = ⟨tag, content⟩
  small : Small content
  reader : read.2.Before rest

theorem ReadBack.content_eq {tag : Byte} {content : List Byte} {read : Tlv × Reader}
    (back : ReadBack tag content rest read) : read.1.content = content := by
  rw [back.value]

theorem ReadBack.nested {tag : Byte} {content : List Byte} {read : Tlv × Reader}
    (back : ReadBack tag content rest read) : (new read.1.content).Before content := by
  rw [back.content_eq]
  exact before_new back.small

theorem read_gives {tag : Byte} {content encoding : List Byte}
    (before : reader.Before (encoding ++ rest)) (element : Ber tag content encoding) :
    Gives (ReadBack tag content rest) reader.read := by
  have size := before.length_le
  have taken := element.length_le
  obtain ⟨input, offset⟩ := reader
  obtain ⟨⟨start, whole, position⟩, small⟩ := before
  simp only at whole position
  subst whole position
  have parsed := readsBack MAX_ASN1_DEPTH tag content encoding start rest element small
  unfold read parseTlvAt
  rw [Nat.sub_zero]
  simp only
  rw [bind_after parsed]
  apply gives_pure
  constructor
  · rfl
  · simp only [List.length_append] at size
    simp only [Small]
    omega
  · exact ⟨⟨start ++ encoding, by simp, by simp⟩, small⟩

theorem expect_gives {tag : Byte} {content encoding : List Byte}
    (before : reader.Before (encoding ++ rest)) (element : Ber tag content encoding) :
    Gives (ReadBack tag content rest) (reader.expect tag) := by
  unfold expect
  apply gives_bind (read_gives before element)
  intro read back
  apply gives_check
  · rw [back.value]
    exact not_not_intro rfl
  exact gives_pure back

/-- As `expect_gives`, for the last element of the input. -/
theorem expect_last {tag : Byte} {content encoding : List Byte}
    (before : reader.Before encoding) (element : Ber tag content encoding) :
    Gives (ReadBack tag content []) (reader.expect tag) := by
  rw [← List.append_nil encoding] at before
  exact expect_gives before element

end Reader

section Structure

variable {reader : Reader} {rest : List Byte}

theorem expectOid_gives {expected encoding : List Byte}
    (before : reader.Before (encoding ++ rest)) (element : Ber 0x06 expected encoding) :
    Gives (Reader.Before rest) (expectOid reader expected) := by
  unfold expectOid
  apply gives_bind (Reader.expect_gives before element)
  intro read back
  apply gives_check
  · rw [back.content_eq]
    exact not_not_intro rfl
  exact gives_pure back.reader

theorem expectVersion_gives {expected : Byte} {encoding : List Byte}
    (before : reader.Before (encoding ++ rest)) (element : Ber 0x02 [expected] encoding) :
    Gives (Reader.Before rest) (expectVersion reader expected) := by
  unfold expectVersion
  apply gives_bind (Reader.expect_gives before element)
  intro read back
  apply gives_check
  · rw [back.content_eq]
    exact not_not_intro rfl
  exact gives_pure back.reader

theorem expectSha256AlgorithmIdentifier_gives {input : List Byte} (small : Small input)
    (algorithm : Sha256Algorithm input) :
    Gives (fun _ => True) (expectSha256AlgorithmIdentifier input) := by
  obtain ⟨oid, null, oidElement, nullElement⟩ := algorithm
  unfold expectSha256AlgorithmIdentifier
  apply gives_bind (expectOid_gives (Reader.before_new small) oidElement)
  intro reader before
  apply gives_bind (Reader.expect_last before nullElement)
  intro read back
  apply gives_last
  simp [back.content_eq, back.reader.isEmpty]

theorem expectEmptyLabel_gives {label : List Byte} (before : reader.Before label)
    (source : LabelSource label) : Gives (Reader.Before []) (expectEmptyLabel reader) := by
  unfold expectEmptyLabel
  cases source with
  | none =>
      rw [if_neg (by simp [before.peekTag_nil])]
      exact gives_pure before
  | empty context algorithm oid text _ contextElement algorithmElement content oidElement
      labelElement =>
      have labelled : reader.peekTag = some 0xa2 := by
        rw [← List.append_nil label] at before
        exact before.peekTag contextElement
      rw [if_pos labelled]
      apply gives_bind (Reader.expect_last before contextElement)
      intro sourceContext contextBack
      apply gives_bind (Reader.expect_last contextBack.nested algorithmElement)
      intro sourceAlgorithm algorithmBack
      apply gives_check
      · simp [algorithmBack.reader.isEmpty]
      have oidBefore := algorithmBack.nested
      rw [content] at oidBefore
      apply gives_bind (expectOid_gives oidBefore oidElement)
      intro labelReader labelBefore
      apply gives_bind (Reader.expect_last labelBefore labelElement)
      intro read back
      apply gives_check
      · simp [back.content_eq, back.reader.isEmpty]
      exact gives_pure contextBack.reader

theorem expectOaepSha256Parameters_gives {content encoding : List Byte}
    (before : reader.Before encoding) (element : Ber 0x30 content encoding)
    (oaep : OaepParameters content) :
    Gives (fun _ => True) (expectOaepSha256Parameters reader) := by
  obtain ⟨hash, hashContext, hashAlgorithm, mgf, mgfContext, mgfAlgorithm, mgfOid, mgfHash,
    mgfHashAlgorithm, label, hashElement, hashAlgorithmElement, hashSha256, mgfElement,
    mgfAlgorithmElement, mgfContent, mgfOidElement, mgfHashElement, mgfSha256, source⟩ := oaep
  unfold expectOaepSha256Parameters
  apply gives_bind (Reader.expect_last before element)
  intro parameters parametersBack
  apply gives_check
  · simp [parametersBack.reader.isEmpty]
  apply gives_bind (Reader.expect_gives parametersBack.nested hashElement)
  intro hashRead hashBack
  apply gives_bind (Reader.expect_last hashBack.nested hashAlgorithmElement)
  intro hashAlgorithmRead hashAlgorithmBack
  apply gives_check
  · simp [hashAlgorithmBack.reader.isEmpty]
  rw [hashAlgorithmBack.content_eq]
  apply gives_bind (expectSha256AlgorithmIdentifier_gives hashAlgorithmBack.small hashSha256)
  intro _ _
  apply gives_bind (Reader.expect_gives hashBack.reader mgfElement)
  intro mgfRead mgfBack
  apply gives_bind (Reader.expect_last mgfBack.nested mgfAlgorithmElement)
  intro mgfAlgorithmRead mgfAlgorithmBack
  apply gives_check
  · simp [mgfAlgorithmBack.reader.isEmpty]
  have mgfBefore := mgfAlgorithmBack.nested
  rw [mgfContent] at mgfBefore
  apply gives_bind (expectOid_gives mgfBefore mgfOidElement)
  intro mgfReader mgfHashBefore
  apply gives_bind (Reader.expect_last mgfHashBefore mgfHashElement)
  intro mgfHashRead mgfHashBack
  apply gives_check
  · simp [mgfHashBack.reader.isEmpty]
  rw [mgfHashBack.content_eq]
  apply gives_bind (expectSha256AlgorithmIdentifier_gives mgfHashBack.small mgfSha256)
  intro _ _
  apply gives_bind (expectEmptyLabel_gives mgfBack.reader source)
  intro parametersReader parametersEnd
  apply gives_last
  simp [parametersEnd.isEmpty]

theorem recipientKey_gives {encryptedKey content : List Byte} (small : Small content)
    (keyLength : encryptedKey.length = 256) (recipient : RecipientInfo encryptedKey content) :
    Gives (fun key => key = encryptedKey) (recipientKey content) := by
  obtain ⟨version, rid, ridContent, algorithm, algorithmContent, key, ridTag, versionElement,
    ridElement, algorithmElement, rsaOaep, keyElement⟩ := recipient
  obtain ⟨oid, parameters, parametersContent, oidElement, parametersElement, oaep⟩ := rsaOaep
  unfold recipientKey
  apply gives_bind (expectVersion_gives (Reader.before_new small) versionElement)
  intro recipientReader ridBefore
  apply gives_bind (Reader.read_gives ridBefore ridElement)
  intro ridRead ridBack
  apply gives_bind (Reader.expect_gives ridBack.reader algorithmElement)
  intro algorithmRead algorithmBack
  apply gives_bind (expectOid_gives algorithmBack.nested oidElement)
  intro keyAlgorithmReader parametersBefore
  apply gives_bind (expectOaepSha256Parameters_gives parametersBefore parametersElement oaep)
  intro _ _
  apply gives_bind (Reader.expect_last algorithmBack.reader keyElement)
  intro keyRead keyBack
  apply gives_check
  · simp [keyBack.content_eq, keyBack.reader.isEmpty, keyLength]
  exact gives_pure keyBack.content_eq

theorem skipOriginatorInfo_gives {originator : List Byte} {tag : Byte}
    {content encoding : List Byte} (before : reader.Before (originator ++ (encoding ++ rest)))
    (info : OriginatorInfo originator) (element : Ber tag content encoding)
    (different : tag ≠ 0xa0) :
    Gives (Reader.Before (encoding ++ rest)) (skipOriginatorInfo reader) := by
  unfold skipOriginatorInfo
  cases info with
  | none =>
      have next : reader.Before (encoding ++ rest) := before
      have absent : reader.peekTag ≠ some 0xa0 := by
        rw [next.peekTag element]
        exact fun same => different (Option.some.inj same)
      rw [if_neg absent]
      exact gives_pure before
  | present info _ infoElement =>
      rw [if_pos (before.peekTag infoElement)]
      apply gives_bind (Reader.read_gives before infoElement)
      intro read back
      exact gives_pure back.reader

/-! ## The ciphertext -/

theorem Chunks.length_le {levels : Nat} {text bytes : List Byte}
    (chunks : Chunks levels text bytes) : text.length ≤ bytes.length := by
  induction chunks with
  | none levels => exact Nat.le_refl _
  | primitive levels tag content encoding text rest string element more ih =>
      have taken := element.length_le
      simp only [List.length_append]
      omega
  | constructed levels tag content encoding inner text rest string element nested more
      nestedIh ih =>
      have taken := element.length_le
      simp only [List.length_append]
      omega

/-- Collecting chunks appends the string they spell. -/
theorem collectStrings_gives {levels : Nat} {text bytes : List Byte}
    (chunks : Chunks levels text bytes) :
    ∃ below, levels = below + 1 ∧
      ∀ (reader : Reader) (rounds : Nat) (output : List Byte), reader.Before bytes →
        bytes.length < rounds → output.length + bytes.length ≤ MAX_CMS_BYTES →
          Gives (fun collected => collected = output ++ text)
            (collectRounds (collectStrings below) rounds reader output) := by
  induction chunks with
  | none levels =>
      refine ⟨levels, rfl, ?_⟩
      intro reader rounds output before enough fits
      cases rounds with
      | zero => simp at enough
      | succ rounds =>
          unfold collectRounds
          rw [if_pos before.isEmpty]
          exact gives_pure (List.append_nil output).symm
  | primitive levels tag content encoding text rest string element more ih =>
      obtain ⟨below, same, ih⟩ := ih
      obtain rfl : levels = below := by omega
      refine ⟨levels, rfl, ?_⟩
      intro reader rounds output before enough fits
      have taken := element.length_le
      simp only [List.length_append] at enough fits
      cases rounds with
      | zero => simp at enough
      | succ rounds =>
          unfold collectRounds
          rw [if_neg (by rw [before.not_isEmpty element]; exact Bool.false_ne_true)]
          apply gives_bind (Reader.read_gives before element)
          rintro ⟨value, next⟩ back
          obtain rfl : value = ⟨tag, content⟩ := back.value
          simp only
          rw [if_pos string, pure_bind]
          apply gives_check
          · simp only [List.length_append]
            omega
          rw [← List.append_assoc]
          apply ih _ _ _ back.reader
          · omega
          · simp only [List.length_append]
            omega
  | constructed levels tag content encoding inner text rest string element nested more
      nestedIh ih =>
      obtain ⟨below, same, ih⟩ := ih
      obtain rfl : levels = below := by omega
      obtain ⟨deeper, rfl, nestedIh⟩ := nestedIh
      refine ⟨deeper + 1, rfl, ?_⟩
      intro reader rounds output before enough fits
      have taken := element.length_le
      have shorter := nested.length_le
      simp only [List.length_append] at enough fits
      cases rounds with
      | zero => simp at enough
      | succ rounds =>
          unfold collectRounds
          rw [if_neg (by rw [before.not_isEmpty element]; exact Bool.false_ne_true)]
          apply gives_bind (Reader.read_gives before element)
          rintro ⟨value, next⟩ back
          obtain rfl : value = ⟨tag, content⟩ := back.value
          have other : ¬ (tag = 0x04 ∨ tag = 0x80) := by
            rcases string with rfl | rfl <;> decide
          simp only
          rw [if_neg other, if_pos string]
          refine gives_bind (nestedIh (.new content) (content.length + 1) output
            (Reader.before_new back.small) (Nat.lt_succ_self _) (by omega)) ?_
          intro collected spelled
          subst spelled
          apply gives_check
          · simp only [List.length_append]
            omega
          rw [← List.append_assoc]
          apply ih _ _ _ back.reader
          · omega
          · simp only [List.length_append]
            omega

theorem EncryptedContent.length_le {text bytes : List Byte}
    (content : EncryptedContent text bytes) : text.length ≤ bytes.length := by
  induction content with
  | none => exact Nat.le_refl _
  | primitive content encoding text rest element more ih =>
      have taken := element.length_le
      simp only [List.length_append]
      omega
  | constructed content encoding inner text rest element nested more ih =>
      have taken := element.length_le
      have shorter := nested.length_le
      simp only [List.length_append]
      omega

theorem ciphertextRounds_gives {text bytes : List Byte}
    (content : EncryptedContent text bytes) :
    ∀ (reader : Reader) (rounds : Nat) (ciphertext : List Byte), reader.Before bytes →
      bytes.length < rounds → ciphertext.length + bytes.length ≤ MAX_CMS_BYTES →
        Gives (fun collected => collected = ciphertext ++ text)
          (ciphertextRounds rounds reader ciphertext) := by
  induction content with
  | none =>
      intro reader rounds ciphertext before enough fits
      cases rounds with
      | zero => simp at enough
      | succ rounds =>
          unfold ciphertextRounds
          rw [if_pos before.isEmpty]
          exact gives_pure (List.append_nil ciphertext).symm
  | primitive content encoding text rest element more ih =>
      intro reader rounds ciphertext before enough fits
      have taken := element.length_le
      simp only [List.length_append] at enough fits
      cases rounds with
      | zero => simp at enough
      | succ rounds =>
          unfold ciphertextRounds
          rw [if_neg (by rw [before.not_isEmpty element]; exact Bool.false_ne_true)]
          apply gives_bind (Reader.read_gives before element)
          rintro ⟨value, next⟩ back
          obtain rfl : value = ⟨0x80, content⟩ := back.value
          simp only
          rw [if_pos trivial, pure_bind, ← List.append_assoc]
          apply ih _ _ _ back.reader
          · omega
          · simp only [List.length_append]
            omega
  | constructed content encoding inner text rest element nested more ih =>
      intro reader rounds ciphertext before enough fits
      have taken := element.length_le
      have shorter := nested.length_le
      simp only [List.length_append] at enough fits
      cases rounds with
      | zero => simp at enough
      | succ rounds =>
          unfold ciphertextRounds
          rw [if_neg (by rw [before.not_isEmpty element]; exact Bool.false_ne_true)]
          apply gives_bind (Reader.read_gives before element)
          rintro ⟨value, next⟩ back
          obtain rfl : value = ⟨0xa0, content⟩ := back.value
          obtain ⟨below, same, collects⟩ := collectStrings_gives nested
          simp only
          rw [if_neg (by decide), if_pos trivial, collectOctetStrings, Nat.sub_zero, same]
          refine gives_bind (collects (.new content) (content.length + 1) ciphertext
            (Reader.before_new back.small) (Nat.lt_succ_self _) (by omega)) ?_
          intro collected spelled
          subst spelled
          rw [← List.append_assoc]
          apply ih _ _ _ back.reader
          · omega
          · simp only [List.length_append]
            omega

theorem encryptedContent_gives {iv ciphertext content : List Byte} (small : Small content)
    (ivLength : iv.length = 16) (nonempty : ciphertext ≠ []) (blocks : ciphertext.length % 16 = 0)
    (info : EncryptedContentInfo iv ciphertext content) :
    Gives (fun read => read = (iv, ciphertext)) (encryptedContent content) := by
  obtain ⟨oid, algorithm, algorithmContent, algorithmOid, ivEncoding, encrypted, oidElement,
    algorithmElement, aesContent, algorithmOidElement, ivElement, encryptedContent⟩ := info
  have size := small
  simp only [Small, List.length_append] at size
  have shorter := encryptedContent.length_le
  unfold KmsRecipientCms.encryptedContent
  apply gives_bind (expectOid_gives (Reader.before_new small) oidElement)
  intro algorithmReader algorithmBefore
  apply gives_bind (Reader.expect_gives algorithmBefore algorithmElement)
  intro algorithmRead algorithmBack
  have oidBefore := algorithmBack.nested
  rw [aesContent] at oidBefore
  apply gives_bind (expectOid_gives oidBefore algorithmOidElement)
  intro ivReader ivBefore
  apply gives_bind (Reader.expect_last ivBefore ivElement)
  intro ivRead ivBack
  apply gives_check
  · simp [ivBack.content_eq, ivBack.reader.isEmpty, ivLength]
  refine gives_bind (ciphertextRounds_gives encryptedContent _ _ [] algorithmBack.reader ?_ ?_) ?_
  · simp only [List.length_append]
    omega
  · simp only [List.length_nil]
    omega
  intro collected spelled
  rw [List.nil_append] at spelled
  subst spelled
  apply gives_check
  · rintro (empty | odd | large)
    · exact nonempty (List.isEmpty_iff.mp empty)
    · exact odd blocks
    · omega
  exact gives_pure (by rw [ivBack.content_eq])

end Structure

/-- Parsing gives back what was encoded. -/
theorem parseKmsRecipientCms_encoding {envelope : KmsRecipientEnvelope} {encoding : List Byte}
    (keyLength : envelope.encryptedKey.length = 256) (ivLength : envelope.iv.length = 16)
    (nonempty : envelope.ciphertext ≠ []) (blocks : envelope.ciphertext.length % 16 = 0)
    (encoded : RecipientEncoding envelope encoding) (size : encoding.length ≤ MAX_CMS_BYTES) :
    parseKmsRecipientCms encoding = .ok envelope := by
  obtain ⟨oid, explicitContext, enveloped, envelopedContent, outer, _, outerElement,
    outerContent, oidElement, explicitElement, envelopedElement, envelopedData⟩ := encoded
  obtain ⟨version, originator, recipients, recipient, recipientContent, info, infoContent,
    versionElement, originatorInfo, recipientsElement, recipientElement, recipientInfo,
    infoElement, contentInfo⟩ := envelopedData
  have taken := outerElement.length_le
  suffices gives : Gives (fun parsed => parsed = envelope) (parseKmsRecipientCms encoding) by
    obtain ⟨parsed, ran, rfl⟩ := gives
    exact ran
  unfold parseKmsRecipientCms
  apply gives_check
  · rw [List.isEmpty_iff_length_eq_zero]
    omega
  apply gives_bind (Reader.expect_last (Reader.before_new size) outerElement)
  intro outerRead outerBack
  apply gives_check
  · simp [outerBack.reader.isEmpty]
  have oidBefore := outerBack.nested
  rw [outerContent] at oidBefore
  apply gives_bind (expectOid_gives oidBefore oidElement)
  intro explicitReader explicitBefore
  apply gives_bind (Reader.expect_last explicitBefore explicitElement)
  intro explicitRead explicitBack
  apply gives_check
  · simp [explicitBack.reader.isEmpty]
  apply gives_bind (Reader.expect_last explicitBack.nested envelopedElement)
  intro envelopedRead envelopedBack
  apply gives_check
  · simp [envelopedBack.reader.isEmpty]
  apply gives_bind (expectVersion_gives envelopedBack.nested versionElement)
  intro originatorReader originatorBefore
  apply gives_bind (skipOriginatorInfo_gives originatorBefore originatorInfo recipientsElement
    (by decide))
  intro recipientsReader recipientsBefore
  apply gives_bind (Reader.expect_gives recipientsBefore recipientsElement)
  intro recipientsRead recipientsBack
  apply gives_bind (Reader.expect_last recipientsBack.nested recipientElement)
  intro recipientRead recipientBack
  apply gives_check
  · simp [recipientBack.reader.isEmpty]
  rw [recipientBack.content_eq]
  apply gives_bind (recipientKey_gives recipientBack.small keyLength recipientInfo)
  intro encryptedKey sameKey
  apply gives_bind (Reader.expect_last recipientsBack.reader infoElement)
  intro infoRead infoBack
  apply gives_check
  · simp [infoBack.reader.isEmpty]
  rw [infoBack.content_eq]
  apply gives_bind (encryptedContent_gives infoBack.small ivLength nonempty blocks contentInfo)
  intro read same
  subst same sameKey
  exact gives_pure rfl

/-- The reader of recipient envelopes: it inverts every encoding of the structure, on every
input it ends with an envelope or an error of its own, and an element that was read lies
inside the input and behind the offset it was read at. -/
theorem recipient_envelope_roundtrip :
    (∀ (encryptedKey iv ciphertext encoding : List Byte), encryptedKey.length = 256 →
      iv.length = 16 → ciphertext ≠ [] → ciphertext.length % 16 = 0 →
      RecipientEncoding ⟨encryptedKey, iv, ciphertext⟩ encoding →
      encoding.length ≤ MAX_CMS_BYTES →
        parseKmsRecipientCms encoding = .ok ⟨encryptedKey, iv, ciphertext⟩) ∧
    (∀ input, Avoids CmsFailure.Abnormal (parseKmsRecipientCms input)) ∧
    (∀ input, Addressable input → ∀ offset depth,
      Avoids CmsFailure.Abnormal (parseTlvAt input offset depth)) ∧
    (∀ input offset depth value next, parseTlvAt input offset depth = .ok (value, next) →
      offset + 1 < next ∧ next ≤ input.length) := by
  refine ⟨?_, avoids_parseKmsRecipientCms, ?_, ?_⟩
  · intro encryptedKey iv ciphertext encoding keyLength ivLength nonempty blocks encoded size
    exact parseKmsRecipientCms_encoding keyLength ivLength nonempty blocks encoded size
  · intro input addressable offset depth
    exact avoids_parseTlv addressable _ offset
  · intro input offset depth value next run
    have within := parseTlvAt_within run
    exact ⟨within.progress, within.inside⟩

/-! ## A message with indefinite lengths and nested chunks -/

namespace SampleMessage

def sha256 : List Byte := definiteElement 0x06 OID_SHA256 ++ definiteElement 0x05 []

def label : List Byte :=
  definiteElement 0xa2
    (definiteElement 0x30 (definiteElement 0x06 OID_PSPECIFIED ++ definiteElement 0x04 []))

def oaep : List Byte :=
  definiteElement 0xa0 (definiteElement 0x30 sha256) ++
    (definiteElement 0xa1
      (definiteElement 0x30 (definiteElement 0x06 OID_MGF1 ++ definiteElement 0x30 sha256)) ++
    label)

def recipient (key : List Byte) : List Byte :=
  definiteElement 0x02 [2] ++ (definiteElement 0x80 [1, 2, 3] ++
    (definiteElement 0x30 (definiteElement 0x06 OID_RSAES_OAEP ++ definiteElement 0x30 oaep) ++
    definiteElement 0x04 key))

/-- The first half in one chunk, the second half one level deeper. -/
def chunks (first second : List Byte) : List Byte :=
  definiteElement 0x04 first ++ indefiniteElement 0x24 (definiteElement 0x04 second)

def info (iv first second : List Byte) : List Byte :=
  definiteElement 0x06 OID_PKCS7_DATA ++
    (definiteElement 0x30 (definiteElement 0x06 OID_AES_256_CBC ++ definiteElement 0x04 iv) ++
    indefiniteElement 0xa0 (chunks first second))

def enveloped (key iv first second : List Byte) : List Byte :=
  definiteElement 0x02 [2] ++ (definiteElement 0xa0 [] ++
    (definiteElement 0x31 (definiteElement 0x30 (recipient key)) ++
    definiteElement 0x30 (info iv first second)))

def message (key iv first second : List Byte) : List Byte :=
  indefiniteElement 0x30 (definiteElement 0x06 OID_PKCS7_ENVELOPED_DATA ++
    indefiniteElement 0xa0 (definiteElement 0x30 (enveloped key iv first second)))

theorem sha256_algorithm : Sha256Algorithm sha256 :=
  ⟨_, _, definiteElement_element _ _ (by decide) (by decide),
    definiteElement_element _ _ (by decide) (by decide)⟩

theorem oaep_parameters : OaepParameters oaep :=
  ⟨_, _, _, _, _, _, _, _, _, _, definiteElement_element _ _ (by decide) (by decide),
    definiteElement_element _ _ (by decide) (by decide), sha256_algorithm,
    definiteElement_element _ _ (by decide) (by decide),
    definiteElement_element _ _ (by decide) (by decide), rfl,
    definiteElement_element _ _ (by decide) (by decide),
    definiteElement_element _ _ (by decide) (by decide), sha256_algorithm,
    .empty _ _ _ _ _ (definiteElement_element _ _ (by decide) (by decide))
      (definiteElement_element _ _ (by decide) (by decide)) rfl
      (definiteElement_element _ _ (by decide) (by decide))
      (definiteElement_element _ _ (by decide) (by decide))⟩

theorem recipient_info (key : List Byte) : RecipientInfo key (recipient key) :=
  ⟨_, _, _, _, _, _, _, definiteElement_element _ _ (by decide) (by decide),
    definiteElement_element _ _ (by decide) (by decide),
    definiteElement_element _ _ (by decide) (by decide),
    ⟨_, _, _, definiteElement_element _ _ (by decide) (by decide),
      definiteElement_element _ _ (by decide) (by decide), oaep_parameters⟩,
    definiteElement_element _ _ (by decide) (by decide)⟩

theorem chunks_spell (first second : List Byte) :
    Chunks MAX_ASN1_DEPTH (first ++ (second ++ [])) (chunks first second) := by
  have inner : Chunks 15 (second ++ []) (definiteElement 0x04 second ++ []) :=
    .primitive 14 _ _ _ _ _ (by decide) (definiteElement_element _ _ (by decide) (by decide))
      (.none 14)
  have outer : Chunks 16 ((second ++ []) ++ [])
      (indefiniteElement 0x24 (definiteElement 0x04 second) ++ []) :=
    .constructed 15 _ _ _ _ _ _ (by decide)
      (indefiniteElement_element (by decide) (by decide) (by decide)
        (.single (definiteElement_element _ _ (by decide) (by decide))))
      (by simpa using inner) (.none 15)
  have whole := Chunks.primitive 15 0x04 first _ _ _ (by decide)
    (definiteElement_element _ _ (by decide) (by decide)) outer
  simpa [chunks, MAX_ASN1_DEPTH] using whole

theorem chunks_sequence (first second : List Byte) :
    Sequence (Element 15) (chunks first second) :=
  .cons _ _ _ _ (definiteElement_element _ _ (by decide) (by decide))
    (.single (indefiniteElement_element (by decide) (by decide) (by decide)
      (.single (definiteElement_element 13 _ (by decide) (by decide)))))

theorem info_content (iv first second : List Byte) :
    EncryptedContentInfo iv (first ++ second) (info iv first second) := by
  have content : EncryptedContent (first ++ second)
      (indefiniteElement 0xa0 (chunks first second)) := by
    have piece := EncryptedContent.constructed _ _ _ _ _
      (indefiniteElement_element (by decide) (by decide) (by decide)
        (chunks_sequence first second)) (chunks_spell first second) .none
    simpa using piece
  exact ⟨_, _, _, _, _, _, definiteElement_element _ _ (by decide) (by decide),
    definiteElement_element _ _ (by decide) (by decide), rfl,
    definiteElement_element _ _ (by decide) (by decide),
    definiteElement_element _ _ (by decide) (by decide), content⟩

theorem message_encoding (key iv first second : List Byte) :
    RecipientEncoding ⟨key, iv, first ++ second⟩ (message key iv first second) := by
  have explicitElement : Element 15 0xa0 (definiteElement 0x30 (enveloped key iv first second))
      (indefiniteElement 0xa0 (definiteElement 0x30 (enveloped key iv first second))) :=
    indefiniteElement_element (by decide) (by decide) (by decide)
      (.single (definiteElement_element 13 _ (by decide) (by decide)))
  have envelopedData : EnvelopedData key iv (first ++ second) (enveloped key iv first second) :=
    ⟨_, _, _, _, _, _, _, definiteElement_element _ _ (by decide) (by decide),
      .present _ _ (definiteElement_element _ _ (by decide) (by decide)),
      definiteElement_element _ _ (by decide) (by decide),
      definiteElement_element _ _ (by decide) (by decide), recipient_info key,
      definiteElement_element _ _ (by decide) (by decide), info_content iv first second⟩
  exact ⟨_, _, _, _, _, _,
    indefiniteElement_element (by decide) (by decide) (by decide)
      (.cons _ _ _ _ (definiteElement_element 14 _ (by decide) (by decide))
        (.single explicitElement)),
    rfl, definiteElement_element _ _ (by decide) (by decide), explicitElement.mono,
    definiteElement_element _ _ (by decide) (by decide), envelopedData⟩

end SampleMessage

/-- The sample message of two ciphertext blocks is read back. -/
theorem sampleMessage_roundtrip :
    parseKmsRecipientCms (SampleMessage.message (List.replicate 256 7) (List.replicate 16 9)
        (List.replicate 16 5) (List.replicate 16 6)) =
      .ok ⟨List.replicate 256 7, List.replicate 16 9,
        List.replicate 16 5 ++ List.replicate 16 6⟩ :=
  recipient_envelope_roundtrip.1 _ _ _ _ List.length_replicate List.length_replicate
    (by decide) (by decide)
    (SampleMessage.message_encoding _ _ _ _) (by decide +kernel)

end Usd8Core.JobApi.KmsRecipientCms
