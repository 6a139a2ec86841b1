import Usd8Core.JobApi.KmsRecipientBounds
import Usd8Core.Lib.Ber

/-!
# Encodings of a KMS recipient envelope

The structure the parser reads, as a grammar over BER elements: every length may be
definite or indefinite, the ciphertext may be one string or any nesting of chunks, the
originator information and the empty OAEP label may be left out.  `parse_tlv_at` reads
every element back.
-/

set_option autoImplicit false

namespace Usd8Core.JobApi.KmsRecipientCms

open Usd8Core.Lib.CheckedCall Usd8Core.Lib.ByteWords Usd8Core.Lib.Ber

/-! ## The grammar -/

/-- An element whose indefinite lengths nest no deeper than the parser goes. -/
abbrev Ber (tag : Byte) (content encoding : List Byte) : Prop :=
  Element MAX_ASN1_DEPTH tag content encoding

/-- A string in chunks, each an octet string or a constructed one of chunks again. -/
inductive Chunks : Nat → List Byte → List Byte → Prop
  | none (levels : Nat) : Chunks (levels + 1) [] []
  | primitive (levels : Nat) (tag : Byte) (content encoding text rest : List Byte)
      (string : tag = 0x04 ∨ tag = 0x80) (element : Ber tag content encoding)
      (more : Chunks (levels + 1) text rest) :
      Chunks (levels + 1) (content ++ text) (encoding ++ rest)
  | constructed (levels : Nat) (tag : Byte) (content encoding inner text rest : List Byte)
      (string : tag = 0x24 ∨ tag = 0xa0) (element : Ber tag content encoding)
      (nested : Chunks levels inner content) (more : Chunks (levels + 1) text rest) :
      Chunks (levels + 1) (inner ++ text) (encoding ++ rest)

/-- The encrypted content: in one piece, in chunks, or several of these in a row. -/
inductive EncryptedContent : List Byte → List Byte → Prop
  | none : EncryptedContent [] []
  | primitive (content encoding text rest : List Byte) (element : Ber 0x80 content encoding)
      (more : EncryptedContent text rest) :
      EncryptedContent (content ++ text) (encoding ++ rest)
  | constructed (content encoding inner text rest : List Byte)
      (element : Ber 0xa0 content encoding) (nested : Chunks MAX_ASN1_DEPTH inner content)
      (more : EncryptedContent text rest) :
      EncryptedContent (inner ++ text) (encoding ++ rest)

inductive Sha256Algorithm : List Byte → Prop
  | mk (oid null : List Byte) (oidElement : Ber 0x06 OID_SHA256 oid)
      (nullElement : Ber 0x05 [] null) : Sha256Algorithm (oid ++ null)

/-- The label source of the OAEP parameters: left out, or an empty label. -/
inductive LabelSource : List Byte → Prop
  | none : LabelSource []
  | empty (context algorithm oid label encoding : List Byte)
      (contextElement : Ber 0xa2 context encoding)
      (algorithmElement : Ber 0x30 algorithm context)
      (content : algorithm = oid ++ label) (oidElement : Ber 0x06 OID_PSPECIFIED oid)
      (labelElement : Ber 0x04 [] label) : LabelSource encoding

inductive OaepParameters : List Byte → Prop
  | mk (hash hashContext hashAlgorithm mgf mgfContext mgfAlgorithm mgfOid mgfHash
      mgfHashAlgorithm label : List Byte)
      (hashElement : Ber 0xa0 hashContext hash)
      (hashAlgorithmElement : Ber 0x30 hashAlgorithm hashContext)
      (hashSha256 : Sha256Algorithm hashAlgorithm)
      (mgfElement : Ber 0xa1 mgfContext mgf)
      (mgfAlgorithmElement : Ber 0x30 mgfAlgorithm mgfContext)
      (mgfContent : mgfAlgorithm = mgfOid ++ mgfHash)
      (mgfOidElement : Ber 0x06 OID_MGF1 mgfOid)
      (mgfHashElement : Ber 0x30 mgfHashAlgorithm mgfHash)
      (mgfSha256 : Sha256Algorithm mgfHashAlgorithm)
      (source : LabelSource label) : OaepParameters (hash ++ (mgf ++ label))

inductive KeyAlgorithm : List Byte → Prop
  | mk (oid parameters parametersContent : List Byte)
      (oidElement : Ber 0x06 OID_RSAES_OAEP oid)
      (parametersElement : Ber 0x30 parametersContent parameters)
      (oaep : OaepParameters parametersContent) : KeyAlgorithm (oid ++ parameters)

/-- The recipient: a version, any element that names it, the algorithm, the key. -/
inductive RecipientInfo (encryptedKey : List Byte) : List Byte → Prop
  | mk (version rid ridContent algorithm algorithmContent key : List Byte) (ridTag : Byte)
      (versionElement : Ber 0x02 [2] version) (ridElement : Ber ridTag ridContent rid)
      (algorithmElement : Ber 0x30 algorithmContent algorithm)
      (rsaOaep : KeyAlgorithm algorithmContent)
      (keyElement : Ber 0x04 encryptedKey key) :
      RecipientInfo encryptedKey (version ++ (rid ++ (algorithm ++ key)))

inductive OriginatorInfo : List Byte → Prop
  | none : OriginatorInfo []
  | present (content encoding : List Byte) (element : Ber 0xa0 content encoding) :
      OriginatorInfo encoding

inductive EncryptedContentInfo (iv ciphertext : List Byte) : List Byte → Prop
  | mk (oid algorithm algorithmContent algorithmOid ivEncoding content : List Byte)
      (oidElement : Ber 0x06 OID_PKCS7_DATA oid)
      (algorithmElement : Ber 0x30 algorithmContent algorithm)
      (aesContent : algorithmContent = algorithmOid ++ ivEncoding)
      (algorithmOidElement : Ber 0x06 OID_AES_256_CBC algorithmOid)
      (ivElement : Ber 0x04 iv ivEncoding)
      (encrypted : EncryptedContent ciphertext content) :
      EncryptedContentInfo iv ciphertext (oid ++ (algorithm ++ content))

inductive EnvelopedData (encryptedKey iv ciphertext : List Byte) : List Byte → Prop
  | mk (version originator recipients recipient recipientContent info infoContent : List Byte)
      (versionElement : Ber 0x02 [2] version) (originatorInfo : OriginatorInfo originator)
      (recipientsElement : Ber 0x31 recipient recipients)
      (recipientElement : Ber 0x30 recipientContent recipient)
      (recipientInfo : RecipientInfo encryptedKey recipientContent)
      (infoElement : Ber 0x30 infoContent info)
      (contentInfo : EncryptedContentInfo iv ciphertext infoContent) :
      EnvelopedData encryptedKey iv ciphertext
        (version ++ (originator ++ (recipients ++ info)))

/-- A whole message. -/
inductive RecipientEncoding (envelope : KmsRecipientEnvelope) : List Byte → Prop
  | mk (oid explicitContext enveloped envelopedContent outer encoding : List Byte)
      (outerElement : Ber 0x30 outer encoding)
      (outerContent : outer = oid ++ explicitContext)
      (oidElement : Ber 0x06 OID_PKCS7_ENVELOPED_DATA oid)
      (explicitElement : Ber 0xa0 enveloped explicitContext)
      (envelopedElement : Ber 0x30 envelopedContent enveloped)
      (envelopedData :
        EnvelopedData envelope.encryptedKey envelope.iv envelope.ciphertext envelopedContent) :
      RecipientEncoding envelope encoding

/-! ## Reading back one element -/

theorem getRange_append (before middle after : List Byte) {start stop : Nat}
    (starts : start = before.length) (stops : stop = before.length + middle.length) :
    getRange (before ++ (middle ++ after)) start stop = some middle := by
  subst starts stops
  unfold getRange
  have inside : before.length ≤ before.length + middle.length ∧
      before.length + middle.length ≤ (before ++ (middle ++ after)).length := by
    simp only [List.length_append]
    omega
  rw [if_pos inside, List.drop_left, Nat.add_sub_cancel_left, List.take_left]

theorem slice_append (before middle after : List Byte) {start stop : Nat}
    (starts : start = before.length) (stops : stop = before.length + middle.length) :
    slice (before ++ (middle ++ after)) start stop = .ok middle := by
  unfold slice
  rw [getRange_append before middle after starts stops]
  rfl

theorem addOr_fits {a b : Nat} (fits : a + b < uintBound 64) : addOr a b = .ok (a + b) := by
  unfold addOr
  rw [if_pos fits]

theorem cursorAdd_fits {a b : Nat} (fits : a + b < uintBound 64) :
    (checkedAdd 64 a b : Except CmsFailure Nat) = .ok (a + b) :=
  (checkedAdd_ok_iff 64 a b _).mpr ⟨fits, rfl⟩

theorem appendOctet_fits {length : Nat} {byte : Byte}
    (fits : length * 256 + byte.toNat < uintBound 64) :
    appendOctet length byte = .ok (length * 256 + byte.toNat) := by
  have scaled : length * 256 < uintBound 64 := Nat.lt_of_le_of_lt (Nat.le_add_right _ _) fits
  unfold appendOctet
  rw [if_pos scaled, addOr_fits fits]

theorem toNat_ofNat_mod (value : Nat) : (UInt8.ofNat (value % 256)).toNat = value % 256 := by
  simp

/-- The octets of a length spell it again. -/
theorem foldlM_appendOctet : ∀ (count length : Nat), length < 256 ^ count →
    length < uintBound 64 → (beBytes count length).foldlM appendOctet 0 = .ok length := by
  intro count
  induction count with
  | zero =>
      intro length fits _
      have zero : length = 0 := by
        simp only [pow_zero] at fits
        omega
      subst zero
      rfl
  | succ count ih =>
      intro length fits small
      have high : length / 256 < 256 ^ count := by
        rw [pow_succ] at fits
        exact Nat.div_lt_of_lt_mul (by rwa [Nat.mul_comm] at fits)
      have whole : length / 256 * 256 + (UInt8.ofNat (length % 256)).toNat = length := by
        rw [toNat_ofNat_mod]
        omega
      rw [beBytes, List.foldlM_append, ih _ high (by omega), bind_after rfl,
        List.foldlM_cons, appendOctet_fits (by rw [whole]; exact small), whole]
      rfl

/-- The first octet of a minimal length is not zero. -/
theorem beBytes_leading {count length : Nat} (least : 256 ^ count ≤ length)
    (fits : length < 256 ^ (count + 1)) :
    ∃ leading rest, beBytes (count + 1) length = leading :: rest ∧ leading ≠ 0 := by
  have positive : 0 < 256 ^ count := Nat.pow_pos (by omega)
  have high : length / 256 ^ count < 256 := by
    rw [pow_succ, Nat.mul_comm] at fits
    exact Nat.div_lt_of_lt_mul (by rwa [Nat.mul_comm] at fits)
  have nonzero : 1 ≤ length / 256 ^ count := (Nat.one_le_div_iff positive).mpr least
  refine ⟨UInt8.ofNat (length / 256 ^ count), beBytes count length, ?_, ?_⟩
  · rw [Nat.add_comm count 1, beBytes_add, beBytes, beBytes, Nat.mod_eq_of_lt high]
    rfl
  · intro zero
    have value := congrArg UInt8.toNat zero
    simp only [UInt8.toNat_ofNat', UInt8.toNat_zero] at value
    omega

theorem short_octet : ∀ length, length < 0x80 →
    UInt8.ofNat length ≠ 0x80 ∧ UInt8.ofNat length &&& 0x80 = 0 ∧
      (UInt8.ofNat length).toNat = length := by
  decide +kernel

theorem long_octet : ∀ count, count < 4 →
    UInt8.ofNat (0x80 + (count + 1)) ≠ 0x80 ∧
      UInt8.ofNat (0x80 + (count + 1)) &&& 0x80 ≠ 0 ∧
      (UInt8.ofNat (0x80 + (count + 1)) &&& 0x7f).toNat = count + 1 := by
  decide +kernel

theorem longLength_count {count length : Nat} (least : 256 ^ count ≤ length)
    (small : length ≤ MAX_CMS_BYTES) : count < 4 := by
  by_contra large
  have power : 256 ^ 4 ≤ 256 ^ count := Nat.pow_le_pow_right (by omega) (by omega)
  simp only [MAX_CMS_BYTES] at small
  omega

/-- A definite length is read back from its octets. -/
theorem definiteLength_octets {length : Nat} {octets : List Byte}
    (encoded : LengthOctets length octets) (small : length ≤ MAX_CMS_BYTES)
    (before after : List Byte) (fits : Small (before ++ (octets ++ after))) :
    ∃ first rest, octets = first :: rest ∧ first ≠ 0x80 ∧
      definiteLength (before ++ (octets ++ after)) before.length first =
        .ok (length, octets.length) := by
  cases encoded with
  | short small =>
      obtain ⟨different, definite, value⟩ := short_octet length small
      refine ⟨_, [], rfl, different, ?_⟩
      unfold definiteLength
      rw [if_pos definite, value]
      rfl
  | long count least bound =>
      obtain ⟨different, long, value⟩ := long_octet count (longLength_count least small)
      have few := longLength_count least small
      refine ⟨_, _, rfl, different, ?_⟩
      simp only [Small, MAX_CMS_BYTES, List.length_append, List.length_cons,
        beBytes_length] at fits small
      have start : (checkedAdd 64 before.length 1 : Except CmsFailure Nat) = .ok _ :=
        cursorAdd_fits (by simp only [uintBound]; omega)
      have stop : (checkedAdd 64 (before.length + 1) (count + 1) : Except CmsFailure Nat) =
          .ok _ := cursorAdd_fits (by simp only [uintBound]; omega)
      have taken : getRange (before ++ ((UInt8.ofNat (0x80 + (count + 1)) ::
          beBytes (count + 1) length) ++ after)) (before.length + 1)
            (before.length + 1 + (count + 1)) = some (beBytes (count + 1) length) := by
        have found := getRange_append (before ++ [UInt8.ofNat (0x80 + (count + 1))])
          (beBytes (count + 1) length) after rfl rfl
        simpa using found
      obtain ⟨leading, rest, spelled, nonzero⟩ := beBytes_leading least bound
      have whole := foldlM_appendOctet (count + 1) length bound (by
        simp only [uintBound]
        omega)
      unfold definiteLength
      rw [if_neg long, value]
      simp only [bind_ok_iff, revertIf_ok_iff, orRevert_ok_iff]
      refine ⟨(), by omega, _, start, _, stop, _, taken, leading, ?_, (), nonzero, _, whole, ?_⟩
      · rw [spelled]
        rfl
      · simp only [pure_ok_iff, List.length_cons, beBytes_length, Nat.add_comm]

/-- `parse_tlv_at` gives back an element wherever it stands. -/
def ReadsBack (levels : Nat) : Prop :=
  ∀ (tag : Byte) (content encoding before after : List Byte),
    Element levels tag content encoding → Small (before ++ (encoding ++ after)) →
      parseTlv (before ++ (encoding ++ after)) levels before.length =
        .ok (⟨tag, content⟩, before.length + encoding.length)

/-- An element does not start with the end-of-contents octets. -/
theorem getRange_element {levels : Nat} {tag : Byte} {content encoding : List Byte}
    (element : Element levels tag content encoding) (before after : List Byte) :
    getRange (before ++ (encoding ++ after)) before.length (before.length + 2) ≠
      some [0, 0] := by
  obtain ⟨nonzero, second, rest, rfl⟩ := element.head
  have found := getRange_append before [tag, second] (rest ++ after) rfl rfl
  simp only [List.cons_append, List.nil_append, List.length_cons, List.length_nil] at found
  rw [List.cons_append, List.cons_append, found]
  intro same
  exact nonzero (List.cons.inj (Option.some.inj same)).1

/-- Skipping the values of an indefinite length ends at its end-of-contents octets. -/
theorem findEnd_sequence {levels : Nat} (readsBack : ReadsBack levels) {values : List Byte}
    (sequence : Sequence (Element levels) values) :
    ∀ (input before after : List Byte) (rounds : Nat),
      input = before ++ (values ++ (0 :: 0 :: after)) → values.length < rounds → Small input →
        findEnd input (parseTlv input levels) rounds before.length =
          .ok (before.length + values.length, before.length + values.length + 2) := by
  induction sequence with
  | nil =>
      intro input before after rounds same enough small
      cases rounds with
      | zero => simp at enough
      | succ rounds =>
          subst same
          have closed := getRange_append before [0, 0] after rfl rfl
          simp only [Small, MAX_CMS_BYTES, List.length_append] at small
          unfold findEnd
          rw [cursorAdd_fits (by simp only [uintBound]; omega), bind_after rfl]
          exact if_pos closed
  | cons tag content encoding rest first later ih =>
      intro input before after rounds same enough small
      cases rounds with
      | zero => simp at enough
      | succ rounds =>
          have taken := first.length_le
          rw [List.append_assoc] at same
          have parsed : parseTlv input levels before.length =
              .ok (⟨tag, content⟩, before.length + encoding.length) := by
            subst same
            exact readsBack tag content encoding before _ first small
          have unclosed := getRange_element first before (rest ++ (0 :: 0 :: after))
          rw [← same] at unclosed
          have tail : findEnd input (parseTlv input levels) rounds (before ++ encoding).length =
              .ok ((before ++ encoding).length + rest.length,
                (before ++ encoding).length + rest.length + 2) := by
            apply ih input (before ++ encoding) after rounds
            · rw [same, List.append_assoc]
            · simp only [List.length_append] at enough
              omega
            · exact small
          simp only [List.length_append, Nat.add_assoc] at tail
          have bound := congrArg List.length same
          simp only [Small, MAX_CMS_BYTES] at small
          simp only [List.length_append] at bound
          unfold findEnd
          rw [cursorAdd_fits (by simp only [uintBound]; omega), bind_after rfl, if_neg unclosed,
            parsed, bind_after rfl]
          simp only [List.length_append, Nat.add_assoc]
          exact tail

theorem readsBack_zero : ReadsBack 0 := by
  intro tag content encoding before after element
  exact element.elim

/-- One more level of indefinite lengths. -/
theorem readsBack_succ {levels : Nat} (readsBack : ReadsBack levels) :
    ReadsBack (levels + 1) := by
  intro tag content encoding before after element small
  have taken := element.length_le
  obtain ⟨second, rest, headed⟩ := element.head.2
  have tagAt : (before ++ (encoding ++ after))[before.length]? = some tag := by
    rw [headed]
    simp
  have secondAt : (before ++ (encoding ++ after))[before.length + 1]? = some second := by
    rw [headed]
    simp
  have inside : ¬ (before ++ (encoding ++ after)).length ≤ before.length := by
    simp only [List.length_append]
    omega
  have size : (before ++ (encoding ++ after)).length ≤ MAX_CMS_BYTES := small
  have lengthOffset : addOr before.length 1 = .ok (before.length + 1) := by
    apply addOr_fits
    simp only [MAX_CMS_BYTES, List.length_append] at size
    simp only [uintBound]
    omega
  obtain ⟨low, -, ⟨octets, length, same⟩ | ⟨constructed, values, same⟩⟩ := element
  · have contentSmall : content.length ≤ MAX_CMS_BYTES := by
      simp only [List.length_append] at size
      omega
    have whole : before ++ (encoding ++ after) =
        (before ++ [tag]) ++ (octets ++ (content ++ after)) := by
      simp [same]
    have ends : before.length + encoding.length =
        before.length + 1 + octets.length + content.length := by
      simp only [same, List.length_cons, List.length_append]
      omega
    obtain ⟨first, octetsRest, spelled, definite, readLength⟩ :=
      definiteLength_octets length contentSmall (before ++ [tag]) (content ++ after)
        (by rw [← whole]; exact small)
    have firstSecond : second = first := by
      rw [spelled, headed] at same
      simpa using (List.cons.inj (List.cons.inj same).2).1
    subst firstSecond
    simp only [← whole, List.length_append, List.length_cons, List.length_nil] at readLength
    have contentSlice : slice (before ++ (encoding ++ after))
        (before.length + 1 + octets.length)
        (before.length + 1 + octets.length + content.length) = .ok content := by
      have found := slice_append (before ++ (tag :: octets)) content after rfl rfl
      simpa [same, Nat.add_assoc, Nat.add_comm 1] using found
    simp only [MAX_CMS_BYTES, List.length_append] at size
    have contentStart : addOr (before.length + 1) octets.length = .ok _ :=
      addOr_fits (by simp only [uintBound]; omega)
    have contentEnd : addOr (before.length + 1 + octets.length) content.length = .ok _ :=
      addOr_fits (by simp only [uintBound]; omega)
    have fits : ¬ before.length + 1 + octets.length + content.length >
        (before ++ (encoding ++ after)).length := by
      simp only [List.length_append]
      omega
    simp only [parseTlv, bind_ok_iff, revertIf_ok_iff, orRevert_ok_iff]
    refine ⟨(), inside, tag, tagAt, (), low, _, lengthOffset, second, secondAt, ?_⟩
    rw [if_neg definite]
    simp only [bind_ok_iff, revertIf_ok_iff]
    exact ⟨_, readLength, _, contentStart, _, contentEnd, (), fits, content, contentSlice,
      by rw [ends]; rfl⟩
  · have indefinite : second = 0x80 := by
      rw [headed] at same
      exact (List.cons.inj (List.cons.inj same).2).1
    have ends : before.length + encoding.length = before.length + 1 + 1 + content.length + 2 := by
      simp only [same, List.length_cons, List.length_append, List.length_nil]
      omega
    have skipped : findEnd (before ++ (encoding ++ after))
        (parseTlv (before ++ (encoding ++ after)) levels)
        ((before ++ (encoding ++ after)).length + 1) (before.length + 1 + 1) =
          .ok (before.length + 1 + 1 + content.length,
            before.length + 1 + 1 + content.length + 2) := by
      have found := findEnd_sequence readsBack values (before ++ (encoding ++ after))
        (before ++ [tag, 0x80]) after ((before ++ (encoding ++ after)).length + 1)
        (by simp [same]) (by simp only [List.length_append]; omega) small
      simpa using found
    have contentSlice : slice (before ++ (encoding ++ after)) (before.length + 1 + 1)
        (before.length + 1 + 1 + content.length) = .ok content := by
      have found := slice_append (before ++ [tag, 0x80]) content (0 :: 0 :: after) rfl rfl
      simpa [same] using found
    have contentStart : (checkedAdd 64 (before.length + 1) 1 : Except CmsFailure Nat) =
        .ok (before.length + 1 + 1) := by
      simp only [MAX_CMS_BYTES, List.length_append] at size
      exact cursorAdd_fits (by simp only [uintBound]; omega)
    simp only [parseTlv, bind_ok_iff, revertIf_ok_iff, orRevert_ok_iff]
    refine ⟨(), inside, tag, tagAt, (), low, _, lengthOffset, second, secondAt, ?_⟩
    rw [if_pos indefinite]
    simp only [bind_ok_iff, revertIf_ok_iff]
    exact ⟨(), constructed, _, contentStart, _, skipped, content, contentSlice,
      by rw [ends]; rfl⟩

theorem readsBack : ∀ levels, ReadsBack levels
  | 0 => readsBack_zero
  | levels + 1 => readsBack_succ (readsBack levels)

end Usd8Core.JobApi.KmsRecipientCms
