import Usd8Core.Checkpoint.Persistence

/-!
# Opening a score source on a checkpoint

A source is opened on what an earlier one committed.  Whatever the provider answers, the
state of an opened source can be committed and read back, and a state that was read can be
replayed further.
-/

set_option autoImplicit false

namespace Usd8Core.Checkpoint

open Std
open Usd8Core.Engine
open Usd8Core.JobApi (eqIgnoreAsciiCase)
open Usd8Core.Lib.ByteWords
open Usd8Core.Lib.CheckedCall
open Usd8Core.Lib.Json (JsonValue)
open Usd8Core.Lib.OracleCall
open Usd8Core.Score

/-! ## Tokens -/

def firstContributingBlock (scored : ScoredToken) (asOfBlock : Nat) : Option Nat :=
  (segments scored.rates).findSome? fun (point, next) =>
    if point.rate ≠ 0 ∧ point.fromBlock < min (next.getD asOfBlock) asOfBlock then
      some point.fromBlock
    else none

def contributesAt (scored : ScoredToken) (asOfBlock : Nat) : Bool :=
  (firstContributingBlock scored asOfBlock).isSome

def checkRate (current : ScoredToken) (indexed : RatePoint × Nat) : Except CheckpointError Unit :=
  revertIf (current.rates[indexed.2]? ≠ some indexed.1) (.invalid
    s!"rate history mismatch for {addressHex current.token} at index {indexed.2}")

def validateStoredToken (stored : TokenState) (current : ScoredToken) :
    Except CheckpointError Unit := do
  revertIf (stored.decimals ≠ current.decimals) (.invalid
    s!"decimals mismatch for {addressHex current.token}: {stored.decimals} != {current.decimals}")
  revertIf (current.rates.length < stored.rates.length) (.invalid
    s!"rate history shrank for {addressHex current.token}")
  let _ ← stored.rates.zipIdx.mapM (checkRate current)
  revertIf ((current.rates.drop stored.rates.length).any (·.fromBlock ≤ stored.cursorBlock) = true)
    (.invalid s!"new rate for {addressHex current.token} begins at/before checkpoint block {
      stored.cursorBlock}")

/-- The token of a history that has not been replayed yet. -/
def TokenState.initial (scored : ScoredToken) : TokenState where
  decimals := scored.decimals
  cursorBlock := 0
  cursorBlockHash := ZERO_HASH
  rates := scored.rates
  accounts := ∅

/-! ## Opening -/

/-- What the file holds, read and authenticated; there is none before the first commit. -/
def loadCheckpoint (stored : Option PersistedCheckpoint) (expectedChainId : Nat) :
    Except CheckpointError CheckpointState :=
  match stored with
  | none => pure ⟨expectedChainId, ∅⟩
  | some checkpoint => do
      let state ← parseState checkpoint
      revertIf (state.chainId ≠ expectedChainId) (.invalid
        s!"checkpoint chain {state.chainId} does not match RPC chain {expectedChainId}")
      pure state

structure CheckpointMetadata where
  asOfBlock : Nat
  asOfBlockHash : String
  indexedTransfers : Nat
  indexedTokens : Nat
  logMetrics : LogMetrics

structure CheckpointScoreSource where
  scoredTokens : List ScoredToken
  asOfBlock : Nat
  state : CheckpointState
  metadata : CheckpointMetadata

/-- What the loop over the active tokens changes. -/
structure Opening where
  state : CheckpointState
  indexedTransfers : Nat
  logMetrics : LogMetrics

section Open

variable {σ : Type} (client : RpcClient σ) (abi : AbiLibrary)

def chainId : Asking σ AnchorError Nat := do
  let value ← mapFailure .rpc (client.call "eth_chainId" (.array []))
  liftResult (quantity value "chainId")

/-- The block of the cursor is still the one that was replayed to. -/
def checkCursor (scored : ScoredToken) (stored : TokenState) : Asking σ CheckpointError Unit :=
  if stored.cursorBlock = 0 then pure ()
  else do
    let current ← mapFailure .anchor (blockByNumber client stored.cursorBlock)
    liftResult (revertIf
      (eqIgnoreAsciiCase (hashHex current.hash) stored.cursorBlockHash = false) (.invalid
        s!"checkpoint block hash mismatch for {addressHex scored.token} at {
          stored.cursorBlock}: {stored.cursorBlockHash} != {hashHex current.hash}"))

def storedToken (scored : ScoredToken) : Option TokenState → Asking σ CheckpointError TokenState
  | some stored => do
      liftResult (validateStoredToken stored scored)
      checkCursor client scored stored
      pure stored
  | none => pure (.initial scored)

variable (asOfBlock fuel maxRange resultCap : Nat)

def openToken (opening : Opening) (scored : ScoredToken) : Asking σ CheckpointError Opening := do
  liftResult ((validateRates scored.rates).mapError core)
  let token ← storedToken client scored opening.state.tokens[scored.token]?
  let (count, metrics, token) ←
    advanceToken client abi scored none fuel token asOfBlock maxRange resultCap
  pure ⟨{ opening.state with tokens := opening.state.tokens.insert scored.token token },
    saturatingAdd opening.indexedTransfers count, mergeLogMetrics opening.logMetrics metrics⟩

/-- `CheckpointScoreSource::open` -/
def openSource (stored : Option PersistedCheckpoint) (scoredTokens : List ScoredToken)
    (expectedChainId : Nat) (integrityKey : List Byte) :
    Asking σ CheckpointError CheckpointScoreSource := do
  liftResult (revertIf (integrityKey.length < 32)
    (.invalid "integrity key must be at least 32 bytes"))
  let actualChainId ← mapFailure .anchor (chainId client)
  liftResult (revertIf (actualChainId ≠ expectedChainId) (.invalid
    s!"RPC chain {actualChainId} does not match expected chain {expectedChainId}"))
  let state ← liftResult (loadCheckpoint stored expectedChainId)
  let active := scoredTokens.filter (contributesAt · asOfBlock)
  let opening ← active.foldlM (openToken client abi asOfBlock fuel maxRange resultCap)
    ⟨state, 0, .default⟩
  let anchor ← mapFailure .anchor (blockByNumber client asOfBlock)
  pure ⟨scoredTokens, asOfBlock, opening.state, asOfBlock, hashHex anchor.hash,
    opening.indexedTransfers, active.length, opening.logMetrics⟩

end Open

/-- What `commit` writes to the file, before it is authenticated. -/
def CheckpointScoreSource.commit (source : CheckpointScoreSource) (integrityKey : List Byte) :
    Except CheckpointError PersistedCheckpoint := do
  revertIf (integrityKey.length < 32) (.invalid "integrity key must be at least 32 bytes")
  pure (serializeState source.state)

/-! ## What an opened source can be committed as -/

def CheckpointState.Persistable (state : CheckpointState) : Prop :=
  ∀ (address : Address) token, state.tokens[address]? = some token → token.Persistable

section Opened

variable {σ : Type} {client : RpcClient σ} {abi : AbiLibrary} {scored : ScoredToken}
  {token : TokenState} {tracked : Option AccountSet} {targetBlock fuel maxRange resultCap : Nat}

theorem validateStoredToken_ok (valid : validateStoredToken token scored = .ok ()) :
    ∀ point ∈ token.rates, point ∈ scored.rates := by
  obtain ⟨_, -, valid⟩ := (bind_ok_iff _ _ _).mp valid
  obtain ⟨_, -, valid⟩ := (bind_ok_iff _ _ _).mp valid
  obtain ⟨checked, same, -⟩ := (bind_ok_iff _ _ _).mp valid
  intro point member
  obtain ⟨index, inRange, isPoint⟩ := List.getElem_of_mem member
  have indexed : (point, index) ∈ token.rates.zipIdx := by
    rw [List.mk_mem_zipIdx_iff_getElem?, List.getElem?_eq_getElem inRange, isPoint]
  obtain ⟨_, -, passes⟩ := exists_right_of_mem ((mapM_ok_iff _ _ _).mp same) indexed
  exact List.mem_of_getElem? (not_not.mp ((revertIf_ok_iff _ _ _).mp passes))

theorem initial_persistable (ascending : Ascending scored.rates)
    (inWord : ∀ point ∈ scored.rates, point.fromBlock ≤ maxU64) :
    (TokenState.initial scored).Persistable where
  ascending := ascending
  accounts _ _ found := by simp [TokenState.initial] at found
  ratesInWord := inWord
  cursorInWord := Nat.zero_le _
  hashed := validHash_hashHex _
  lowerCase := toAsciiLowercase_hashHex _
  genesis _ := rfl

/-- A replay of a token that can be written leaves such a token. -/
theorem ends_advanceToken_persistable (persistable : token.Persistable)
    (goesOn : ∀ point ∈ token.rates, point ∈ scored.rates) (ascending : Ascending scored.rates)
    (ratesInWord : ∀ point ∈ scored.rates, point.fromBlock ≤ maxU64)
    (inWord : targetBlock ≤ maxU64) :
    Ends (fun result => result.2.2.Persistable) Tolerable
      (advanceToken client abi scored tracked fuel token targetBlock maxRange resultCap) := by
  have sound := persistable.accounts.mono goesOn (Nat.le_refl token.cursorBlock)
  refine (ends_advanceToken_sound fuel sound inWord).mono (fun result ended => ?_) fun _ => id
  rcases ended with ⟨same, -⟩ | ⟨cursor, later, rates, ⟨hash, isHash⟩, accounts⟩
  · rw [same]
    exact persistable
  · constructor
    · constructor
      · rw [rates]
        exact ascending
      · rw [rates, cursor]
        exact accounts
    · rw [rates]
      exact ratesInWord
    · rw [cursor]
      exact inWord
    · rw [isHash, validHash_hashHex]
    · rw [isHash, toAsciiLowercase_hashHex]
    · intro atGenesis
      omega

theorem ends_storedToken {found : Option TokenState}
    (persistable : ∀ token, found = some token → token.Persistable)
    (ascending : Ascending scored.rates)
    (ratesInWord : ∀ point ∈ scored.rates, point.fromBlock ≤ maxU64) :
    Ends (fun token => token.Persistable ∧ ∀ point ∈ token.rates, point ∈ scored.rates)
      (fun _ => True) (storedToken client scored found) := by
  cases found with
  | none => exact ends_pure ⟨initial_persistable ascending ratesInWord, fun _ => id⟩
  | some stored =>
      have validated : Ends (fun _ => ∀ point ∈ stored.rates, point ∈ scored.rates)
          (fun _ => True) (liftResult (validateStoredToken stored scored) :
            Asking σ CheckpointError Unit) :=
        ends_liftResult (fun _ valid => validateStoredToken_ok valid) fun _ _ => trivial
      refine validated.bind fun _ goesOn => ?_
      exact ends_true.bind fun _ _ => ends_pure ⟨persistable stored rfl, goesOn⟩

theorem ends_openToken {opening : Opening} (persistable : opening.state.Persistable)
    (ratesInWord : ∀ point ∈ scored.rates, point.fromBlock ≤ maxU64)
    (inWord : targetBlock ≤ maxU64) :
    Ends (fun next => next.state.Persistable) (fun _ => True)
      (openToken client abi targetBlock fuel maxRange resultCap opening scored) := by
  have validated : Ends (fun _ => Ascending scored.rates) (fun _ => True)
      (liftResult ((validateRates scored.rates).mapError core) :
        Asking σ CheckpointError Unit) := by
    refine ends_liftResult (fun _ valid => ?_) fun _ _ => trivial
    by_contra disordered
    simp [validateRates, revertIf, disordered, Except.mapError] at valid
  refine validated.bind fun _ ascending => ?_
  refine (ends_storedToken (persistable scored.token) ascending ratesInWord).bind
    fun token known => ?_
  have advanced : Ends (fun result => result.2.2.Persistable) (fun _ => True)
      (advanceToken client abi scored none fuel token targetBlock maxRange resultCap) :=
    (ends_advanceToken_persistable known.1 known.2 ascending ratesInWord inWord).mono
      (fun _ => id) fun _ _ => trivial
  refine advanced.bind fun result isPersistable => ends_pure ?_
  intro address other found
  rw [TreeMap.getElem?_insert] at found
  split at found
  · cases found
    exact isPersistable
  · exact persistable address other found

/-- Whatever the file holds and the provider answers. -/
theorem ends_openSource (stored : Option PersistedCheckpoint) (scoredTokens : List ScoredToken)
    (expectedChainId : Nat) (integrityKey : List Byte)
    (ratesInWord : ∀ scored ∈ scoredTokens, ∀ point ∈ scored.rates, point.fromBlock ≤ maxU64)
    (inWord : targetBlock ≤ maxU64) :
    Ends (fun source => source.state.Persistable) (fun _ => True)
      (openSource client abi targetBlock fuel maxRange resultCap stored scoredTokens expectedChainId
        integrityKey) := by
  have loaded : Ends (fun state => state.Persistable) (fun _ => True)
      (liftResult (loadCheckpoint stored expectedChainId) :
        Asking σ CheckpointError CheckpointState) := by
    refine ends_liftResult (fun state read => ?_) fun _ _ => trivial
    cases stored with
    | none =>
        cases (pure_ok_iff _ _).mp read
        intro address token found
        simp at found
    | some checkpoint =>
        obtain ⟨parsed, isParsed, read⟩ := (bind_ok_iff _ _ _).mp read
        obtain ⟨_, -, read⟩ := (bind_ok_iff _ _ _).mp read
        cases (pure_ok_iff _ _).mp read
        exact fun address token found => parseState_ok isParsed found
  refine ends_true.bind fun _ _ => ends_true.bind fun actualChainId _ => ?_
  refine ends_true.bind fun _ _ => loaded.bind fun state persistable => ?_
  have visited : Ends (fun opening => opening.state.Persistable) (fun _ => True)
      ((scoredTokens.filter (contributesAt · targetBlock)).foldlM
        (openToken client abi targetBlock fuel maxRange resultCap) ⟨state, 0, .default⟩) :=
    ends_foldlM _ (fun scored member opening kept =>
      ends_openToken kept (ratesInWord scored (List.mem_of_mem_filter member)) inWord) persistable
  refine visited.bind fun opening kept => ?_
  exact ends_true.bind fun anchor _ => ends_pure kept

end Opened

/-- The accounts of the token are sound, and no replay of a history that goes on misses a rate or
moves an account backward. -/
structure TokenState.Resumable (token : TokenState) : Prop extends token.Sound where
  goesOn : ∀ (σ : Type) (client : RpcClient σ) (abi : AbiLibrary) (scored : ScoredToken)
    (tracked : Option AccountSet) (fuel targetBlock maxRange resultCap : Nat),
    targetBlock ≤ maxU64 → validateStoredToken token scored = .ok () →
    Ends (fun _ => True) Tolerable
      (advanceToken client abi scored tracked fuel token targetBlock maxRange resultCap)

theorem resumable_of_sound {token : TokenState} (sound : token.Sound) : token.Resumable where
  toSound := sound
  goesOn σ client abi scored tracked fuel targetBlock maxRange resultCap inWord valid := by
    have known := sound.accounts.mono (validateStoredToken_ok valid) (Nat.le_refl _)
    exact (ends_advanceToken_sound fuel known inWord).mono (fun _ _ => trivial) fun _ => id

/-- What an opened source commits reads back as its state, and what reads can be resumed. -/
theorem checkpoint_persists {σ : Type} (client : RpcClient σ) (abi : AbiLibrary)
    (stored : Option PersistedCheckpoint) (scoredTokens : List ScoredToken)
    (asOfBlock fuel maxRange resultCap expectedChainId : Nat) (integrityKey : List Byte)
    (ratesInWord : ∀ scored ∈ scoredTokens, ∀ point ∈ scored.rates, point.fromBlock ≤ maxU64)
    (inWord : asOfBlock ≤ maxU64) :
    Ends (fun source => ∃ loaded, parseState (serializeState source.state) = .ok loaded ∧
        SameState source.state loaded) (fun _ => True)
      (openSource client abi asOfBlock fuel maxRange resultCap stored scoredTokens expectedChainId
        integrityKey) ∧
    ∀ persisted state, parseState persisted = .ok state →
      ∀ (address : Address) token, state.tokens[address]? = some token → token.Resumable := by
  constructor
  · refine (ends_openSource stored scoredTokens expectedChainId integrityKey ratesInWord
      inWord).mono (fun source persistable => ?_) fun _ => id
    exact parseState_serializeState persistable
  · intro persisted state read address token found
    exact resumable_of_sound (parseState_ok read found).toSound

namespace SampleSource

/-- A provider of a chain whose token has not been transferred yet. -/
def answer (method : String) : JsonValue :=
  if method = "eth_chainId" then .string "0x1"
  else if method = "eth_getBlockByNumber" then
    .object [("number", .string "0x2"), ("timestamp", .string "0x0"), ("hash", .string ZERO_HASH)]
  else .array []

def client : RpcClient Unit where
  request method _ start := (.ok (answer method), start)
  transportAttempts start := (0, start)
  now start := (0, start)
  expires _ start := (false, start)

def scored : ScoredToken := ⟨Address.ofNat 7, 18, [⟨1, 5⟩]⟩

def opened : Asking Unit CheckpointError CheckpointScoreSource :=
  openSource client SmallHistory.abi 2 5 10 10 none [scored] 1 (List.replicate 32 0)

/-- A first opening replays the token, and what it commits reads back. -/
theorem opened_persists : ∃ source loaded, (runFrom opened ()).1 = .ok source ∧
    source.metadata.indexedTokens = 1 ∧ parseState (serializeState source.state) = .ok loaded ∧
    SameState source.state loaded := by
  have indexed : (runFrom opened ()).1.toOption.map (·.metadata.indexedTokens) = some 1 := by
    decide +kernel
  have persists := (checkpoint_persists client SmallHistory.abi none [scored] 2 5 10 10 1
    (List.replicate 32 0) (by decide) (by decide)).1
  cases outcome : runFrom opened () with
  | mk result last =>
      cases result with
      | error error => simp [outcome, Except.toOption] at indexed
      | ok source =>
          obtain ⟨loaded, read, same⟩ := persists.value outcome
          exact ⟨source, loaded, rfl, by simpa [outcome, Except.toOption] using indexed, read, same⟩

end SampleSource

end Usd8Core.Checkpoint
