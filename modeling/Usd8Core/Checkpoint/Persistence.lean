import Usd8Core.Checkpoint.SoundTokens
import Usd8Core.JobApi.SettlementVerifier
import Usd8Core.Lib.MapCopy

/-!
# Persisted checkpoints

A checkpoint is stored as texts.  `parse_state` accepts sound tokens only, and reads back
what `serialize_state` wrote of sound ones.
-/

set_option autoImplicit false

namespace Usd8Core.Checkpoint

open Std
open Usd8Core.Engine
open Usd8Core.JobApi (addressFromText byteCount eqIgnoreAsciiCase isHexDigit)
open Usd8Core.Lib.ByteWords
open Usd8Core.Lib.CheckedCall
open Usd8Core.Lib.DecimalText
open Usd8Core.Lib.Json (toAsciiLowercase)
open Usd8Core.Lib.MapCopy
open Usd8Core.Score

def SCHEMA_VERSION : Nat := 1

def ZERO_HASH : String := hashHex Hash.zero

structure CheckpointState where
  chainId : Nat
  tokens : TreeMap Address TokenState compareAddress

structure PersistedAccount where
  balance : String
  lastBlock : String
  completedNumerator : String
  activeSegmentFrom : Option String
  activeIntegral : String

structure PersistedRate where
  fromBlock : String
  rate : String

structure PersistedToken where
  decimals : Nat
  cursorBlock : String
  cursorBlockHash : String
  rates : List PersistedRate
  accounts : TreeMap String PersistedAccount

structure PersistedCheckpoint where
  schemaVersion : Nat
  chainId : Nat
  tokens : TreeMap String PersistedToken

/-! ## Writing -/

def persistAccount (value : AccountScoreState) : PersistedAccount where
  balance := decimalText value.balance
  lastBlock := decimalText value.lastBlock
  completedNumerator := decimalText value.completedNumerator
  activeSegmentFrom := value.activeSegmentFrom.map decimalText
  activeIntegral := decimalText value.activeIntegral

def persistRate (rate : RatePoint) : PersistedRate where
  fromBlock := decimalText rate.fromBlock
  rate := decimalText rate.rate

def persistToken (token : TokenState) : PersistedToken where
  decimals := token.decimals
  cursorBlock := decimalText token.cursorBlock
  cursorBlockHash := token.cursorBlockHash
  rates := token.rates.map persistRate
  accounts := rekey addressHex persistAccount token.accounts

def serializeState (state : CheckpointState) : PersistedCheckpoint where
  schemaVersion := SCHEMA_VERSION
  chainId := state.chainId
  tokens := rekey addressHex persistToken state.tokens

/-! ## Reading -/

def decimal (value field : String) : Except CheckpointError Nat := do
  let digits := value.toList
  revertIf (digits = [] ∨ (1 < digits.length ∧ digits.head? = some '0') ∨
    digits.all isDigit = false) (.invalid s!"non-canonical bigint {field}")
  pure (decimalValue digits)

def decimalU64 (value field : String) : Except CheckpointError Nat := do
  let read ← decimal value field
  revertIf (maxU64 < read) (.invalid s!"checkpoint integer {field} exceeds u64")
  pure read

def validHash (hash : String) : Bool :=
  byteCount hash.toList = 66 ∧ (strip0x hash).any (·.all isHexDigit)

/-- `Address::from_str` on a key that must be its own text. -/
def parseAddress (kind text : String) : Except CheckpointError Address := do
  let address ← orRevert (addressFromText text) (.invalid s!"invalid {kind} address {text}")
  revertIf (addressHex address ≠ toAsciiLowercase text.toList)
    (.invalid s!"non-canonical {kind} address {text}")
  pure address

def parseRate (token : Address) (indexed : PersistedRate × Nat) :
    Except CheckpointError RatePoint := do
  let fromBlock ← decimalU64 indexed.1.fromBlock
    s!"{addressHex token}.rates[{indexed.2}].fromBlock"
  let rate ← decimal indexed.1.rate s!"{addressHex token}.rates[{indexed.2}].rate"
  pure ⟨fromBlock, rate⟩

def parseSegment (token account : Address) : Option String → Except CheckpointError (Option Nat)
  | none => pure none
  | some raw => do
      let fromBlock ← decimalU64 raw s!"{addressHex token}.{addressHex account}.activeSegmentFrom"
      pure (some fromBlock)

/-- The segment is one of the rates, or nothing is integrated. -/
def checkSegment (rates : List RatePoint) (account : Address) (activeIntegral : String) :
    Option Nat → Except CheckpointError Unit
  | some fromBlock => revertIf (rates.any (·.fromBlock == fromBlock) = false) (.invalid
      s!"account {addressHex account} references absent rate segment {fromBlock}")
  | none => revertIf (activeIntegral ≠ "0") (.invalid
      s!"account {addressHex account} has inactive nonzero integral")

def parseAccount (token : Address) (cursorBlock : Nat) (rates : List RatePoint)
    (accountText : String) (value : PersistedAccount) :
    Except CheckpointError (Address × AccountScoreState) := do
  let account ← parseAddress "account" accountText
  let lastBlock ← decimalU64 value.lastBlock s!"{addressHex token}.{addressHex account}.lastBlock"
  revertIf (lastBlock > cursorBlock) (.invalid
    s!"account {addressHex account} is ahead of token cursor {cursorBlock}")
  let activeSegmentFrom ← parseSegment token account value.activeSegmentFrom
  checkSegment rates account value.activeIntegral activeSegmentFrom
  let balance ← decimal value.balance s!"{addressHex token}.{addressHex account}.balance"
  let completedNumerator ← decimal value.completedNumerator
    s!"{addressHex token}.{addressHex account}.completedNumerator"
  let activeIntegral ← decimal value.activeIntegral
    s!"{addressHex token}.{addressHex account}.activeIntegral"
  pure (account, ⟨balance, lastBlock, completedNumerator, activeSegmentFrom, activeIntegral⟩)

def parseToken (tokenText : String) (raw : PersistedToken) :
    Except CheckpointError (Address × TokenState) := do
  let token ← parseAddress "token" tokenText
  revertIf (validHash raw.cursorBlockHash = false)
    (.invalid s!"invalid cursor block hash for {addressHex token}")
  let cursorBlock ← decimalU64 raw.cursorBlock s!"{addressHex token}.cursorBlock"
  revertIf (cursorBlock = 0 ∧ eqIgnoreAsciiCase raw.cursorBlockHash ZERO_HASH = false)
    (.invalid s!"nonzero genesis cursor hash for {addressHex token}")
  let rates ← raw.rates.zipIdx.mapM (parseRate token)
  (validateRates rates).mapError core
  let accounts ← copy (parseAccount token cursorBlock rates) (fun _ => none) raw.accounts
  pure (token, ⟨raw.decimals, cursorBlock, toAsciiLowercase raw.cursorBlockHash.toList, rates,
    accounts⟩)

def parseState (persisted : PersistedCheckpoint) : Except CheckpointError CheckpointState := do
  revertIf (persisted.schemaVersion ≠ SCHEMA_VERSION)
    (.invalid s!"unsupported schema version {persisted.schemaVersion}")
  let tokens ← copy parseToken
    (fun token => some (.invalid s!"duplicate token address {addressHex token}")) persisted.tokens
  pure ⟨persisted.chainId, tokens⟩

/-! ## What is written reads back -/

section Texts

theorem decimalText_toList (value : Nat) : (decimalText value).toList = Nat.toDigits 10 value := by
  simp [decimalText]

theorem decimal_decimalText (value : Nat) (field : String) :
    decimal (decimalText value) field = .ok value := by
  have digits := toDigits_spec value
  have canonical : ¬ (1 < (Nat.toDigits 10 value).length ∧
      (Nat.toDigits 10 value).head? = some '0') := by
    rintro ⟨long, zero⟩
    rcases Nat.eq_zero_or_pos value with rfl | positive
    · simp at long
    · exact toDigits_head positive.ne' zero
  simp [decimal, decimalText_toList, revertIf, canonical, digits.1, digits.2, Bind.bind,
    Except.bind, pure, Except.pure]

theorem decimalU64_decimalText {value : Nat} (fits : value ≤ maxU64) (field : String) :
    decimalU64 (decimalText value) field = .ok value := by
  simp [decimalU64, decimal_decimalText, revertIf, Nat.not_lt.mpr fits, Bind.bind, Except.bind,
    pure, Except.pure]

theorem parseAddress_addressHex (kind : String) (address : Address) :
    parseAddress kind (addressHex address) = .ok address := by
  have lower : toAsciiLowercase (addressHex address).toList = addressHex address :=
    toAsciiLowercase_bytesHex _
  simp [parseAddress, JobApi.addressFromText_addressHex, orRevert, revertIf, lower, Bind.bind,
    Except.bind, pure, Except.pure]

theorem toAsciiLowercase_hashHex (hash : Hash) :
    toAsciiLowercase (hashHex hash).toList = hashHex hash :=
  toAsciiLowercase_bytesHex _

theorem addressHex_injective : Function.Injective addressHex := by
  intro first second same
  have one := JobApi.addressFromText_addressHex first
  rw [same, JobApi.addressFromText_addressHex] at one
  exact (Option.some.inj one).symm

theorem isHexDigit_hexDigit : ∀ value < 16, isHexDigit (hexDigit value) = true := by
  decide

theorem validHash_hashHex (hash : Hash) : validHash (hashHex hash) = true := by
  have digits : (hash.bytes.flatMap hexByte).all isHexDigit = true := by
    simp only [List.all_flatMap, List.all_eq_true, hexByte, List.forall_mem_cons]
    intro byte member
    have bound := byte.toNat_lt
    exact ⟨isHexDigit_hexDigit _ (by omega), isHexDigit_hexDigit _ (by omega), by simp⟩
  have count := JobApi.byteCount_hexBytes hash.bytes
  have zero : '0'.utf8Size = 1 := by decide
  have x : 'x'.utf8Size = 1 := by decide
  simp [validHash, strip0x, hashHex, digits, byteCount, zero, x] at count ⊢
  omega

theorem hexDigit_toLower : ∀ value < 128, isHexDigit (Char.ofNat value) = true →
    isHexDigit (Char.ofNat value).toLower = true ∧
      (Char.ofNat value).toLower.toLower = (Char.ofNat value).toLower ∧
      (Char.ofNat value).toLower.utf8Size = (Char.ofNat value).utf8Size := by
  decide

theorem isHexDigit_toLower {c : Char} (isDigit : isHexDigit c = true) :
    isHexDigit c.toLower = true ∧ c.toLower.toLower = c.toLower ∧
      c.toLower.utf8Size = c.utf8Size := by
  have ascii : c.toNat < 128 := by
    have bounds := isDigit
    simp only [isHexDigit, JobApi.isLowerHexDigit, Char.isDigit, Bool.or_eq_true, Bool.and_eq_true,
      decide_eq_true_eq, Char.le_def, UInt32.le_iff_toNat_le, ge_iff_le] at bounds
    change c.val.toNat < 128
    rcases bounds with (⟨-, upper⟩ | ⟨-, upper⟩) | ⟨-, upper⟩
    all_goals exact upper.trans_lt (by decide)
  have lower := hexDigit_toLower c.toNat ascii
  rw [Char.ofNat_toNat] at lower
  exact lower isDigit

theorem validHash_iff (hash : String) : validHash hash = true ↔
    byteCount hash.toList = 66 ∧ ∃ digits, hash.toList = '0' :: 'x' :: digits ∧
      ∀ c ∈ digits, isHexDigit c = true := by
  simp only [validHash, strip0x, decide_eq_true_eq, Option.any_eq_true]
  refine and_congr_right fun _ => ?_
  constructor
  · rintro ⟨digits, starts, isHex⟩
    split at starts
    next rest spelled =>
      cases starts
      exact ⟨digits, spelled, List.all_eq_true.mp isHex⟩
    next => cases starts
  · rintro ⟨digits, spelled, isHex⟩
    exact ⟨digits, by simp [spelled], List.all_eq_true.mpr isHex⟩

/-- A valid hash stays one in lower case, where it is its own lower case. -/
theorem validHash_lower {hash : String} (valid : validHash hash = true) :
    validHash (toAsciiLowercase hash.toList) = true ∧
      toAsciiLowercase (toAsciiLowercase hash.toList).toList = toAsciiLowercase hash.toList := by
  obtain ⟨size, digits, spelled, isHex⟩ := (validHash_iff hash).mp valid
  have prefix0 : '0'.toLower = '0' := by decide
  have prefixX : 'x'.toLower = 'x' := by decide
  have lowered : (toAsciiLowercase hash.toList).toList = '0' :: 'x' :: digits.map Char.toLower := by
    simp [toAsciiLowercase, spelled, prefix0, prefixX]
  have sizes : digits.map (Char.utf8Size ∘ Char.toLower) = digits.map Char.utf8Size :=
    List.map_congr_left fun c member => (isHexDigit_toLower (isHex c member)).2.2
  have twice : digits.map (Char.toLower ∘ Char.toLower) = digits.map Char.toLower :=
    List.map_congr_left fun c member => (isHexDigit_toLower (isHex c member)).2.1
  constructor
  · refine (validHash_iff _).mpr ⟨?_, digits.map Char.toLower, lowered, ?_⟩
    · rw [spelled] at size
      simpa [lowered, byteCount, sizes] using size
    · simp only [List.mem_map]
      rintro _ ⟨c, member, rfl⟩
      exact (isHexDigit_toLower (isHex c member)).1
  · rw [lowered]
    simp [toAsciiLowercase, spelled, prefix0, prefixX, twice]

end Texts

/-! ## What is written of a token reads back -/

/-- A sound token whose blocks are words and whose cursor has a hash. -/
structure TokenState.Persistable (token : TokenState) : Prop extends token.Sound where
  ratesInWord : ∀ point ∈ token.rates, point.fromBlock ≤ maxU64
  cursorInWord : token.cursorBlock ≤ maxU64
  hashed : validHash token.cursorBlockHash = true
  lowerCase : toAsciiLowercase token.cursorBlockHash.toList = token.cursorBlockHash
  genesis : token.cursorBlock = 0 → token.cursorBlockHash = ZERO_HASH

/-- The maps hold the same, however they were filled. -/
structure SameToken (first second : TokenState) : Prop where
  decimals : first.decimals = second.decimals
  cursorBlock : first.cursorBlock = second.cursorBlock
  cursorBlockHash : first.cursorBlockHash = second.cursorBlockHash
  rates : first.rates = second.rates
  accounts : ∀ address : Address, first.accounts[address]? = second.accounts[address]?

structure SameState (first second : CheckpointState) : Prop where
  chainId : first.chainId = second.chainId
  tokens : ∀ address : Address,
    Option.Rel SameToken first.tokens[address]? second.tokens[address]?

section RoundTrip

variable {cursorBlock : Nat} {rates : List RatePoint} {account : Address}
  {value : AccountScoreState} {token : TokenState}

theorem parseRates_persist (token : Address) (inWord : ∀ point ∈ rates, point.fromBlock ≤ maxU64)
    (start : Nat) : ((rates.map persistRate).zipIdx start).mapM (parseRate token) = .ok rates := by
  induction rates generalizing start with
  | nil => rfl
  | cons point rest ih =>
      have first : parseRate token (persistRate point, start) = .ok point := by
        have block := decimalU64_decimalText (inWord point List.mem_cons_self)
        simp [parseRate, persistRate, block, decimal_decimalText, Bind.bind, Except.bind, pure,
          Except.pure]
      have later := ih (fun other member => inWord other (List.mem_cons_of_mem _ member)) (start + 1)
      rw [List.map_cons, List.zipIdx_cons, List.mapM_cons, first, later]
      rfl

theorem parseSegment_persist (token account : Address) {segment : Option Nat}
    (inWord : ∀ fromBlock, segment = some fromBlock → fromBlock ≤ maxU64) :
    parseSegment token account (segment.map decimalText) = .ok segment := by
  cases segment with
  | none => rfl
  | some fromBlock =>
      simp [parseSegment, decimalU64_decimalText (inWord fromBlock rfl), Bind.bind, Except.bind,
        pure, Except.pure]

theorem checkSegment_persist (account : Address) (known : KnownSegment rates value) :
    checkSegment rates account (decimalText value.activeIntegral) value.activeSegmentFrom =
      .ok () := by
  cases active : value.activeSegmentFrom with
  | none =>
      have zero : decimalText value.activeIntegral = "0" := by
        rw [known.idle active]
        rfl
      simp [checkSegment, revertIf, zero]
  | some fromBlock =>
      obtain ⟨point, member, starts⟩ := known.known fromBlock active
      have present : rates.any (·.fromBlock == fromBlock) = true :=
        List.any_eq_true.mpr ⟨point, member, by simp [starts]⟩
      simp [checkSegment, revertIf, present]

theorem parseAccount_persist (token : Address) (sound : SoundAccount rates cursorBlock value)
    (inWord : ∀ point ∈ rates, point.fromBlock ≤ maxU64) (cursorInWord : cursorBlock ≤ maxU64) :
    parseAccount token cursorBlock rates (addressHex account) (persistAccount value) =
      .ok (account, value) := by
  have block := decimalU64_decimalText (sound.behind.trans cursorInWord)
  have behind : ¬ value.lastBlock > cursorBlock := Nat.not_lt.mpr sound.behind
  have segmentInWord (fromBlock : Nat) (active : value.activeSegmentFrom = some fromBlock) :
      fromBlock ≤ maxU64 := by
    obtain ⟨point, member, rfl⟩ := sound.known fromBlock active
    exact inWord point member
  simp only [parseAccount, persistAccount, parseAddress_addressHex, block, revertIf, if_neg behind,
    parseSegment_persist token account segmentInWord, checkSegment_persist account
    sound.toKnownSegment, decimal_decimalText, Bind.bind, Except.bind, pure, Except.pure]

theorem parseAccounts_persist (token : Address) {accounts : Accounts}
    (sound : SoundAccounts rates cursorBlock accounts)
    (inWord : ∀ point ∈ rates, point.fromBlock ≤ maxU64) (cursorInWord : cursorBlock ≤ maxU64) :
    ∃ copied : Accounts, copy (parseAccount token cursorBlock rates) (fun _ => none)
        (rekey addressHex persistAccount accounts : TreeMap String PersistedAccount) =
          .ok copied ∧
      ∀ address : Address, accounts[address]? = copied[address]? := by
  have whole : ∃ copied : Accounts, copy (parseAccount token cursorBlock rates) (fun _ => none)
      (rekey addressHex persistAccount accounts : TreeMap String PersistedAccount) = .ok copied ∧
        _ :=
    copy_rekey addressHex_injective persistAccount _ _ accounts Eq fun address value found =>
      ⟨value, parseAccount_persist token (sound address value found) inWord cursorInWord, rfl⟩
  obtain ⟨copied, run, lookups⟩ := whole
  refine ⟨copied, run, fun address => ?_⟩
  have related := lookups address
  generalize accounts[address]? = first, copied[address]? = second at related ⊢
  cases related with
  | some same => rw [same]
  | none => rfl

theorem parseToken_persist (address : Address) (persistable : token.Persistable) :
    ∃ read, parseToken (addressHex address) (persistToken token) = .ok (address, read) ∧
      SameToken token read := by
  have cursor := decimalU64_decimalText persistable.cursorInWord
  have atGenesis : ¬ (token.cursorBlock = 0 ∧
      eqIgnoreAsciiCase token.cursorBlockHash ZERO_HASH = false) := by
    rintro ⟨zero, differs⟩
    rw [persistable.genesis zero] at differs
    simp [eqIgnoreAsciiCase] at differs
  have rates : (token.rates.map persistRate).zipIdx.mapM (parseRate address) = .ok token.rates :=
    parseRates_persist address persistable.ratesInWord 0
  have ascending : (validateRates token.rates).mapError core = .ok () := by
    simp [validateRates, revertIf, persistable.ascending, Except.mapError]
  obtain ⟨accounts, copied, lookups⟩ := parseAccounts_persist address persistable.accounts
    persistable.ratesInWord persistable.cursorInWord
  refine ⟨{ token with accounts := accounts }, ?_, rfl, rfl, rfl, rfl, lookups⟩
  have hashPasses : ¬ validHash token.cursorBlockHash = false := by simp [persistable.hashed]
  refine (bind_ok_iff _ _ _).mpr ⟨address, parseAddress_addressHex _ _, ?_⟩
  refine (bind_ok_iff _ _ _).mpr ⟨(), (revertIf_ok_iff _ _ _).mpr hashPasses, ?_⟩
  refine (bind_ok_iff _ _ _).mpr ⟨token.cursorBlock, cursor _, ?_⟩
  refine (bind_ok_iff _ _ _).mpr ⟨(), (revertIf_ok_iff _ _ _).mpr atGenesis, ?_⟩
  refine (bind_ok_iff _ _ _).mpr ⟨token.rates, rates, ?_⟩
  refine (bind_ok_iff _ _ _).mpr ⟨(), ascending, ?_⟩
  refine (bind_ok_iff _ _ _).mpr ⟨accounts, copied, ?_⟩
  simp only [persistToken, persistable.lowerCase, pure, Except.pure]

/-- Every state of persistable tokens is read back from what is written of it. -/
theorem parseState_serializeState {state : CheckpointState}
    (persistable : ∀ (address : Address) token, state.tokens[address]? = some token →
      token.Persistable) :
    ∃ loaded, parseState (serializeState state) = .ok loaded ∧ SameState state loaded := by
  have whole : ∃ copied, copy parseToken
      (fun token => some (.invalid s!"duplicate token address {addressHex token}"))
      (rekey addressHex persistToken state.tokens : TreeMap String PersistedToken) = .ok copied ∧
        _ :=
    copy_rekey addressHex_injective persistToken parseToken _ state.tokens SameToken
      fun address token found => parseToken_persist address (persistable address token found)
  obtain ⟨tokens, copied, lookups⟩ := whole
  refine ⟨⟨state.chainId, tokens⟩, ?_, rfl, lookups⟩
  simp only [parseState, serializeState, revertIf, ne_eq, not_true_eq_false, if_false, copied,
    Bind.bind, Except.bind, pure, Except.pure]

end RoundTrip

/-! ## What is read is sound -/

section Reading

variable {token account : Address} {cursorBlock : Nat} {rates : List RatePoint}

theorem decimal_zero {field : String} {value : Nat} (read : decimal "0" field = .ok value) :
    value = 0 := by
  obtain ⟨_, -, read⟩ := (bind_ok_iff _ _ _).mp read
  cases (pure_ok_iff _ _).mp read
  decide

theorem decimalU64_inWord {text field : String} {value : Nat}
    (read : decimalU64 text field = .ok value) : value ≤ maxU64 := by
  obtain ⟨decoded, -, read⟩ := (bind_ok_iff _ _ _).mp read
  obtain ⟨_, fits, read⟩ := (bind_ok_iff _ _ _).mp read
  cases (pure_ok_iff _ _).mp read
  exact Nat.not_lt.mp ((revertIf_ok_iff _ _ _).mp fits)

theorem parseAccount_ok {name : String} {value : PersistedAccount} {state : AccountScoreState}
    (read : parseAccount token cursorBlock rates name value = .ok (account, state)) :
    SoundAccount rates cursorBlock state := by
  obtain ⟨address, -, read⟩ := (bind_ok_iff _ _ _).mp read
  obtain ⟨lastBlock, -, read⟩ := (bind_ok_iff _ _ _).mp read
  obtain ⟨_, behind, read⟩ := (bind_ok_iff _ _ _).mp read
  obtain ⟨segment, -, read⟩ := (bind_ok_iff _ _ _).mp read
  obtain ⟨_, known, read⟩ := (bind_ok_iff _ _ _).mp read
  obtain ⟨balance, -, read⟩ := (bind_ok_iff _ _ _).mp read
  obtain ⟨completed, -, read⟩ := (bind_ok_iff _ _ _).mp read
  obtain ⟨integral, integralRead, read⟩ := (bind_ok_iff _ _ _).mp read
  cases (pure_ok_iff _ _).mp read
  refine ⟨⟨?_, ?_⟩, Nat.not_lt.mp ((revertIf_ok_iff _ _ _).mp behind)⟩
  · rintro fromBlock rfl
    have present := (revertIf_ok_iff _ _ _).mp known
    rw [Bool.not_eq_false, List.any_eq_true] at present
    obtain ⟨point, member, starts⟩ := present
    exact ⟨point, member, by simpa using starts⟩
  · rintro rfl
    have isZero : value.activeIntegral = "0" := not_not.mp ((revertIf_ok_iff _ _ _).mp known)
    rw [isZero] at integralRead
    exact decimal_zero integralRead

theorem parseToken_ok {name : String} {raw : PersistedToken} {state : TokenState}
    (read : parseToken name raw = .ok (token, state)) : state.Persistable := by
  obtain ⟨address, -, read⟩ := (bind_ok_iff _ _ _).mp read
  obtain ⟨_, hashed, read⟩ := (bind_ok_iff _ _ _).mp read
  obtain ⟨cursor, cursorRead, read⟩ := (bind_ok_iff _ _ _).mp read
  obtain ⟨_, genesis, read⟩ := (bind_ok_iff _ _ _).mp read
  obtain ⟨points, pointsRead, read⟩ := (bind_ok_iff _ _ _).mp read
  obtain ⟨_, validated, read⟩ := (bind_ok_iff _ _ _).mp read
  obtain ⟨accounts, copied, read⟩ := (bind_ok_iff _ _ _).mp read
  cases (pure_ok_iff _ _).mp read
  have valid := validHash_lower (by simpa using (revertIf_ok_iff _ _ _).mp hashed)
  have ascending : Ascending points := by
    by_contra disordered
    simp [validateRates, revertIf, disordered, Except.mapError] at validated
  refine ⟨⟨ascending, ?_⟩, ?_, decimalU64_inWord cursorRead, valid.1, valid.2, ?_⟩
  · intro account value found
    obtain ⟨name, held, -, accountRead⟩ := of_copied copied found
    exact parseAccount_ok accountRead
  · intro point member
    obtain ⟨indexed, -, pointRead⟩ := exists_of_mapM_ok pointsRead member
    obtain ⟨fromBlock, blockRead, pointRead⟩ := (bind_ok_iff _ _ _).mp pointRead
    obtain ⟨rate, -, pointRead⟩ := (bind_ok_iff _ _ _).mp pointRead
    cases (pure_ok_iff _ _).mp pointRead
    exact decimalU64_inWord blockRead
  · rintro rfl
    have same : eqIgnoreAsciiCase raw.cursorBlockHash ZERO_HASH = true := by
      simpa using (revertIf_ok_iff _ _ _).mp genesis
    have zero : toAsciiLowercase ZERO_HASH.toList = ZERO_HASH := toAsciiLowercase_hashHex _
    rw [← zero]
    simp only [eqIgnoreAsciiCase, beq_iff_eq] at same
    simp only [toAsciiLowercase, same]

/-- Every token of a state that is read is sound, and can be written again. -/
theorem parseState_ok {persisted : PersistedCheckpoint} {state : CheckpointState}
    (read : parseState persisted = .ok state) {address : Address} {token : TokenState}
    (found : state.tokens[address]? = some token) : token.Persistable := by
  obtain ⟨_, -, read⟩ := (bind_ok_iff _ _ _).mp read
  obtain ⟨tokens, copied, read⟩ := (bind_ok_iff _ _ _).mp read
  cases (pure_ok_iff _ _).mp read
  obtain ⟨name, raw, -, tokenRead⟩ := of_copied copied found
  exact parseToken_ok tokenRead

end Reading

end Usd8Core.Checkpoint
