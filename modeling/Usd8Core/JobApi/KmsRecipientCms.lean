import Usd8Core.Lib.ByteWords

/-!
# Reading a KMS recipient envelope

The key service answers an attested request with a CMS message: an RSA-OAEP encrypted
content key, an IV and AES-CBC ciphertext.  The reader takes tag-length-value elements
out of one byte slice by offset; an indefinite length is resolved by skipping the nested
elements up to the end-of-contents octets.
-/

set_option autoImplicit false

namespace Usd8Core.JobApi.KmsRecipientCms

open Usd8Core.Lib.CheckedCall Usd8Core.Lib.ByteWords

def MAX_CMS_BYTES : Nat := 1024 * 1024

def MAX_ASN1_DEPTH : Nat := 16

def OID_PKCS7_ENVELOPED_DATA : List Byte :=
  [0x2a, 0x86, 0x48, 0x86, 0xf7, 0x0d, 0x01, 0x07, 0x03]

def OID_PKCS7_DATA : List Byte := [0x2a, 0x86, 0x48, 0x86, 0xf7, 0x0d, 0x01, 0x07, 0x01]

def OID_RSAES_OAEP : List Byte := [0x2a, 0x86, 0x48, 0x86, 0xf7, 0x0d, 0x01, 0x01, 0x07]

def OID_MGF1 : List Byte := [0x2a, 0x86, 0x48, 0x86, 0xf7, 0x0d, 0x01, 0x01, 0x08]

def OID_PSPECIFIED : List Byte := [0x2a, 0x86, 0x48, 0x86, 0xf7, 0x0d, 0x01, 0x01, 0x09]

def OID_SHA256 : List Byte := [0x60, 0x86, 0x48, 0x01, 0x65, 0x03, 0x04, 0x02, 0x01]

def OID_AES_256_CBC : List Byte := [0x60, 0x86, 0x48, 0x01, 0x65, 0x03, 0x04, 0x01, 0x2a]

structure KmsRecipientEnvelope where
  encryptedKey : List Byte
  iv : List Byte
  ciphertext : List Byte
  deriving DecidableEq

/-- How the parser can stop: with an error text of its own, by a panic of the compiled
code, or, were a loop's rounds not enough for it, not at all. -/
inductive CmsFailure where
  | error (text : String)
  | panic (panic : Panic)
  | unfinished
  deriving DecidableEq

instance : HasPanic CmsFailure := ⟨.panic⟩

/-- The ways of stopping that no input may cause. -/
def CmsFailure.Abnormal : CmsFailure → Prop
  | .error _ => False
  | .panic _ => True
  | .unfinished => True

/-! ## Slices -/

/-- `input.get(start..end)` -/
def getRange (input : List Byte) (start stop : Nat) : Option (List Byte) :=
  if start ≤ stop ∧ stop ≤ input.length then some ((input.drop start).take (stop - start))
  else none

/-- `&input[start..end]` -/
def slice (input : List Byte) (start stop : Nat) : Except CmsFailure (List Byte) :=
  orRevert (getRange input start stop) (.panic .indexOutOfBounds)

/-- `checked_add(..).ok_or("CMS_ASN1_OVERFLOW")` -/
def addOr (a b : Nat) : Except CmsFailure Nat :=
  if a + b < uintBound 64 then .ok (a + b) else .error (.error "CMS_ASN1_OVERFLOW")

/-- One more octet of a length: `checked_mul(256)` and `checked_add`. -/
def appendOctet (length : Nat) (byte : Byte) : Except CmsFailure Nat :=
  if length * 256 < uintBound 64 then addOr (length * 256) byte.toNat
  else .error (.error "CMS_ASN1_OVERFLOW")

/-! ## Elements -/

structure Tlv where
  tag : Byte
  content : List Byte
  deriving DecidableEq

/-- The loop over an indefinite-length content: skip elements up to the two zero octets.
Returns where the content ends and where the next element starts. -/
def findEnd (input : List Byte) (parse : Nat → Except CmsFailure (Tlv × Nat)) :
    Nat → Nat → Except CmsFailure (Nat × Nat)
  | 0, _ => .error .unfinished
  | rounds + 1, cursor => do
      let next ← checkedAdd 64 cursor 2
      if getRange input cursor next = some [0, 0] then pure (cursor, next)
      else do
        let (_, nestedNext) ← parse cursor
        findEnd input parse rounds nestedNext

/-- A definite length and the octets it takes, from its first octet on. -/
def definiteLength (input : List Byte) (lengthOffset : Nat) (first : Byte) :
    Except CmsFailure (Nat × Nat) :=
  if first &&& 0x80 = 0 then pure (first.toNat, 1)
  else do
    let count := (first &&& 0x7f).toNat
    revertIf (count = 0 ∨ count > 4) (.error "CMS_ASN1_LENGTH")
    let start ← checkedAdd 64 lengthOffset 1
    let stop ← checkedAdd 64 start count
    let lengthBytes ← orRevert (getRange input start stop) (.error "CMS_ASN1_EOF")
    let leading ← orRevert lengthBytes[0]? (.panic .indexOutOfBounds)
    revertIf (leading = 0) (.error "CMS_ASN1_NON_MINIMAL_LENGTH")
    let length ← lengthBytes.foldlM appendOctet 0
    pure (length, 1 + count)

/-- `parse_tlv_at` with `levels` of nesting left: the element and the offset after it. -/
def parseTlv (input : List Byte) : Nat → Nat → Except CmsFailure (Tlv × Nat)
  | 0, _ => .error (.error "CMS_ASN1_DEPTH_OR_EOF")
  | levels + 1, offset => do
      revertIf (input.length ≤ offset) (.error "CMS_ASN1_DEPTH_OR_EOF")
      let tag ← orRevert input[offset]? (.panic .indexOutOfBounds)
      revertIf (tag &&& 0x1f = 0x1f) (.error "CMS_ASN1_HIGH_TAG")
      let lengthOffset ← addOr offset 1
      let first ← orRevert input[lengthOffset]? (.error "CMS_ASN1_EOF")
      if first = 0x80 then do
        revertIf (tag &&& 0x20 = 0) (.error "CMS_ASN1_INDEFINITE_PRIMITIVE")
        let contentStart ← checkedAdd 64 lengthOffset 1
        -- every round moves the cursor forward, so one round for each octet is enough
        let (contentEnd, next) ←
          findEnd input (parseTlv input levels) (input.length + 1) contentStart
        let content ← slice input contentStart contentEnd
        pure (⟨tag, content⟩, next)
      else do
        let (length, headerBytes) ← definiteLength input lengthOffset first
        let contentStart ← addOr lengthOffset headerBytes
        let contentEnd ← addOr contentStart length
        revertIf (contentEnd > input.length) (.error "CMS_ASN1_EOF")
        let content ← slice input contentStart contentEnd
        pure (⟨tag, content⟩, contentEnd)

def parseTlvAt (input : List Byte) (offset depth : Nat) : Except CmsFailure (Tlv × Nat) :=
  parseTlv input (MAX_ASN1_DEPTH - depth) offset

structure Reader where
  input : List Byte
  offset : Nat

namespace Reader

def new (input : List Byte) : Reader := { input := input, offset := 0 }

def isEmpty (reader : Reader) : Bool := reader.offset == reader.input.length

def peekTag (reader : Reader) : Option Byte := reader.input[reader.offset]?

def read (reader : Reader) : Except CmsFailure (Tlv × Reader) := do
  let (value, next) ← parseTlvAt reader.input reader.offset 0
  pure (value, { reader with offset := next })

def expect (reader : Reader) (tag : Byte) : Except CmsFailure (Tlv × Reader) := do
  let (value, reader) ← reader.read
  revertIf (value.tag ≠ tag) (.error "CMS_ASN1_TAG")
  pure (value, reader)

end Reader

def expectOid (reader : Reader) (expected : List Byte) : Except CmsFailure Reader := do
  let (value, reader) ← reader.expect 0x06
  revertIf (value.content ≠ expected) (.error "CMS_OID")
  pure reader

def expectVersion (reader : Reader) (expected : Byte) : Except CmsFailure Reader := do
  let (value, reader) ← reader.expect 0x02
  revertIf (value.content ≠ [expected]) (.error "CMS_VERSION")
  pure reader

/-- The loop of `collect_octet_strings`; `nested` collects a constructed string. -/
def collectRounds (nested : List Byte → List Byte → Except CmsFailure (List Byte)) :
    Nat → Reader → List Byte → Except CmsFailure (List Byte)
  | 0, _, _ => .error .unfinished
  | rounds + 1, reader, output =>
      if reader.isEmpty then pure output
      else do
        let (value, reader) ← reader.read
        let output ← (
          if value.tag = 0x04 ∨ value.tag = 0x80 then pure (output ++ value.content)
          else if value.tag = 0x24 ∨ value.tag = 0xa0 then nested value.content output
          else .error (.error "CMS_ENCRYPTED_CONTENT_TAG"))
        revertIf (output.length > MAX_CMS_BYTES) (.error "CMS_ENCRYPTED_CONTENT_TOO_LARGE")
        collectRounds nested rounds reader output

/-- `collect_octet_strings` with `levels` of nesting left: the output so far with the
strings of the input behind it. -/
def collectStrings : Nat → List Byte → List Byte → Except CmsFailure (List Byte)
  | 0, _, _ => .error (.error "CMS_ASN1_DEPTH_OR_EOF")
  | levels + 1, input, output =>
      collectRounds (collectStrings levels) (input.length + 1) (.new input) output

def collectOctetStrings (input output : List Byte) (depth : Nat) :
    Except CmsFailure (List Byte) :=
  collectStrings (MAX_ASN1_DEPTH - depth) input output

/-! ## The recipient structure -/

def expectSha256AlgorithmIdentifier (input : List Byte) : Except CmsFailure Unit := do
  let algorithm := Reader.new input
  let algorithm ← expectOid algorithm OID_SHA256
  let (null, algorithm) ← algorithm.expect 0x05
  revertIf (¬ null.content.isEmpty ∨ ¬ algorithm.isEmpty)
    (.error "CMS_OAEP_SHA256_PARAMETERS")

/-- The optional label source of the OAEP parameters; only the empty label is accepted. -/
def expectEmptyLabel (parametersReader : Reader) : Except CmsFailure Reader :=
  if parametersReader.peekTag = some 0xa2 then do
    let (sourceContext, parametersReader) ← parametersReader.expect 0xa2
    let sourceContextReader := Reader.new sourceContext.content
    let (sourceAlgorithm, sourceContextReader) ← sourceContextReader.expect 0x30
    revertIf (¬ sourceContextReader.isEmpty) (.error "CMS_OAEP_SOURCE_TRAILING")
    let sourceAlgorithmReader := Reader.new sourceAlgorithm.content
    let sourceAlgorithmReader ← expectOid sourceAlgorithmReader OID_PSPECIFIED
    let (label, sourceAlgorithmReader) ← sourceAlgorithmReader.expect 0x04
    revertIf (¬ label.content.isEmpty ∨ ¬ sourceAlgorithmReader.isEmpty)
      (.error "CMS_OAEP_NONEMPTY_LABEL")
    pure parametersReader
  else pure parametersReader

def expectOaepSha256Parameters (reader : Reader) : Except CmsFailure Unit := do
  let (parameters, reader) ← reader.expect 0x30
  revertIf (¬ reader.isEmpty) (.error "CMS_OAEP_ALGORITHM_TRAILING")
  let parametersReader := Reader.new parameters.content
  let (hashContext, parametersReader) ← parametersReader.expect 0xa0
  let hashContextReader := Reader.new hashContext.content
  let (hashAlgorithm, hashContextReader) ← hashContextReader.expect 0x30
  revertIf (¬ hashContextReader.isEmpty) (.error "CMS_OAEP_HASH_TRAILING")
  expectSha256AlgorithmIdentifier hashAlgorithm.content
  let (mgfContext, parametersReader) ← parametersReader.expect 0xa1
  let mgfContextReader := Reader.new mgfContext.content
  let (mgfAlgorithm, mgfContextReader) ← mgfContextReader.expect 0x30
  revertIf (¬ mgfContextReader.isEmpty) (.error "CMS_OAEP_MGF_TRAILING")
  let mgfAlgorithmReader := Reader.new mgfAlgorithm.content
  let mgfAlgorithmReader ← expectOid mgfAlgorithmReader OID_MGF1
  let (mgfHashAlgorithm, mgfAlgorithmReader) ← mgfAlgorithmReader.expect 0x30
  revertIf (¬ mgfAlgorithmReader.isEmpty) (.error "CMS_OAEP_MGF_PARAMETERS_TRAILING")
  expectSha256AlgorithmIdentifier mgfHashAlgorithm.content
  let parametersReader ← expectEmptyLabel parametersReader
  revertIf (¬ parametersReader.isEmpty) (.error "CMS_OAEP_PARAMETERS_TRAILING")

/-- The encrypted content key of a recipient. -/
def recipientKey (recipient : List Byte) : Except CmsFailure (List Byte) := do
  let recipientReader := Reader.new recipient
  let recipientReader ← expectVersion recipientReader 2
  let (_, recipientReader) ← recipientReader.read
  let (keyAlgorithm, recipientReader) ← recipientReader.expect 0x30
  let keyAlgorithmReader := Reader.new keyAlgorithm.content
  let keyAlgorithmReader ← expectOid keyAlgorithmReader OID_RSAES_OAEP
  expectOaepSha256Parameters keyAlgorithmReader
  let (encryptedKey, recipientReader) ← recipientReader.expect 0x04
  revertIf (encryptedKey.content.length ≠ 256 ∨ ¬ recipientReader.isEmpty)
    (.error "CMS_ENCRYPTED_KEY_LENGTH")
  pure encryptedKey.content

/-- The loop over the encrypted content. -/
def ciphertextRounds : Nat → Reader → List Byte → Except CmsFailure (List Byte)
  | 0, _, _ => .error .unfinished
  | rounds + 1, encryptedContentReader, ciphertext =>
      if encryptedContentReader.isEmpty then pure ciphertext
      else do
        let (value, encryptedContentReader) ← encryptedContentReader.read
        let ciphertext ← (
          if value.tag = 0x80 then pure (ciphertext ++ value.content)
          else if value.tag = 0xa0 then collectOctetStrings value.content ciphertext 0
          else .error (.error "CMS_ENCRYPTED_CONTENT_TAG"))
        ciphertextRounds rounds encryptedContentReader ciphertext

/-- The IV and the ciphertext of the encrypted content. -/
def encryptedContent (encryptedContentInfo : List Byte) :
    Except CmsFailure (List Byte × List Byte) := do
  let encryptedContentReader := Reader.new encryptedContentInfo
  let encryptedContentReader ← expectOid encryptedContentReader OID_PKCS7_DATA
  let (contentAlgorithm, encryptedContentReader) ← encryptedContentReader.expect 0x30
  let contentAlgorithmReader := Reader.new contentAlgorithm.content
  let contentAlgorithmReader ← expectOid contentAlgorithmReader OID_AES_256_CBC
  let (iv, contentAlgorithmReader) ← contentAlgorithmReader.expect 0x04
  revertIf (iv.content.length ≠ 16 ∨ ¬ contentAlgorithmReader.isEmpty) (.error "CMS_IV_LENGTH")
  let ciphertext ←
    ciphertextRounds (encryptedContentInfo.length + 1) encryptedContentReader []
  revertIf (ciphertext.isEmpty ∨ ciphertext.length % 16 ≠ 0 ∨
    ciphertext.length > MAX_CMS_BYTES) (.error "CMS_CIPHERTEXT_LENGTH")
  pure (iv.content, ciphertext)

/-- The originator information is skipped. -/
def skipOriginatorInfo (envelopedReader : Reader) : Except CmsFailure Reader :=
  if envelopedReader.peekTag = some 0xa0 then do
    let (_, envelopedReader) ← envelopedReader.read
    pure envelopedReader
  else pure envelopedReader

def parseKmsRecipientCms (input : List Byte) : Except CmsFailure KmsRecipientEnvelope := do
  revertIf (input.isEmpty ∨ input.length > MAX_CMS_BYTES) (.error "CMS_SIZE")
  let root := Reader.new input
  let (outer, root) ← root.expect 0x30
  revertIf (¬ root.isEmpty) (.error "CMS_TRAILING_DATA")
  let contentInfo := Reader.new outer.content
  let contentInfo ← expectOid contentInfo OID_PKCS7_ENVELOPED_DATA
  let (explicit, contentInfo) ← contentInfo.expect 0xa0
  revertIf (¬ contentInfo.isEmpty) (.error "CMS_CONTENT_INFO_TRAILING")
  let explicitReader := Reader.new explicit.content
  let (enveloped, explicitReader) ← explicitReader.expect 0x30
  revertIf (¬ explicitReader.isEmpty) (.error "CMS_EXPLICIT_TRAILING")
  let envelopedReader := Reader.new enveloped.content
  let envelopedReader ← expectVersion envelopedReader 2
  let envelopedReader ← skipOriginatorInfo envelopedReader
  let (recipientSet, envelopedReader) ← envelopedReader.expect 0x31
  let recipientSetReader := Reader.new recipientSet.content
  let (recipient, recipientSetReader) ← recipientSetReader.expect 0x30
  revertIf (¬ recipientSetReader.isEmpty) (.error "CMS_MULTIPLE_RECIPIENTS")
  let encryptedKey ← recipientKey recipient.content
  let (encryptedContentInfo, envelopedReader) ← envelopedReader.expect 0x30
  revertIf (¬ envelopedReader.isEmpty) (.error "CMS_ENVELOPED_TRAILING")
  let (iv, ciphertext) ← encryptedContent encryptedContentInfo.content
  pure { encryptedKey := encryptedKey, iv := iv, ciphertext := ciphertext }

end Usd8Core.JobApi.KmsRecipientCms
