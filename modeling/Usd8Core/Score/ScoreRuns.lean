import Usd8Core.Score.SplitLaw

/-!
# Score states over time

An account's history is a list of transfers and advances, each made with the rate
list known at its block.  What a state projects depends on the transfers alone.
-/

set_option autoImplicit false

namespace Usd8Core.Score

open Usd8Core.Lib.CheckedCall

/-! ## Rate lists known so far -/

/-- The points of the rate list that `known` lacks all start after `block`. -/
def KnownAt (rates : List RatePoint) (block : Nat) (known : List RatePoint) : Prop :=
  ∃ more, rates = known ++ more ∧ ∀ point ∈ more, block < point.fromBlock

section Known

variable {known more : List RatePoint} {decimals toBlock : Nat} {state : AccountScoreState}

/-- The active segment, if there is one, has begun. -/
def StartedBy (block : Nat) (state : AccountScoreState) : Prop :=
  ∀ fromBlock, state.activeSegmentFrom = some fromBlock → fromBlock ≤ block

theorem KnownAt.refl (rates : List RatePoint) (block : Nat) : KnownAt rates block rates :=
  ⟨[], by simp, by simp⟩

theorem ascending_known (ascending : Ascending (known ++ more)) : Ascending known :=
  List.IsChain.left_of_append ascending

theorem finalizeActive_known (later : ∀ point ∈ more, toBlock < point.fromBlock)
    (started : StartedBy toBlock state) :
    finalizeActive state (known ++ more) decimals = finalizeActive state known decimals := by
  unfold finalizeActive
  cases active : state.activeSegmentFrom with
  | none => rfl
  | some fromBlock => simp only [rateFor_known later (started fromBlock active)]

theorem finalizeActive_inactive {next : AccountScoreState} {rates : List RatePoint}
    (ran : finalizeActive state rates decimals = .ok next) : next.activeSegmentFrom = none := by
  unfold finalizeActive at ran
  cases active : state.activeSegmentFrom with
  | none =>
      rw [active] at ran
      cases (pure_ok_iff _ _).mp ran
      exact active
  | some fromBlock =>
      rw [active] at ran
      obtain ⟨rate, -, result⟩ := (bind_ok_iff _ _ _).mp ran
      cases (pure_ok_iff _ _).mp result
      rfl

/-- A segment that begins after `toBlock` is passed over. -/
theorem advanceSegment_late {rates : List RatePoint} {segment : RatePoint × Option Nat}
    (late : toBlock < segment.1.fromBlock) :
    advanceSegment rates decimals toBlock state segment = .ok state := by
  have inside := overlapTo_le segment.2 toBlock
  have apart : overlapTo segment.2 toBlock ≤ max state.lastBlock segment.1.fromBlock := by omega
  unfold advanceSegment
  dsimp only
  rw [if_pos apart]
  rfl

/-- The end of a segment as a longer rate list gives it: the same, or one after `toBlock`
where the shorter list has none. -/
def SameEnd (toBlock : Nat) (longer shorter : Option Nat) : Prop :=
  longer = shorter ∨ shorter = none ∧ ∃ next, longer = some next ∧ toBlock < next

theorem SameEnd.overlapTo_eq {longer shorter : Option Nat} (same : SameEnd toBlock longer shorter) :
    overlapTo longer toBlock = overlapTo shorter toBlock := by
  rcases same with rfl | ⟨rfl, next, rfl, after⟩
  · rfl
  · simp only [overlapTo]
    omega

theorem SameEnd.any_eq {longer shorter : Option Nat} (same : SameEnd toBlock longer shorter) :
    (longer.any fun next => overlapTo (some next) toBlock == next && decide (next ≤ toBlock)) =
      shorter.any fun next =>
        overlapTo (some next) toBlock == next && decide (next ≤ toBlock) := by
  rcases same with rfl | ⟨rfl, next, rfl, after⟩
  · rfl
  · simp [after]

theorem openSegment_started {rates : List RatePoint} {next : AccountScoreState} {fromBlock : Nat}
    (ran : (if state.activeSegmentFrom ≠ some fromBlock then do
        let state ← finalizeActive state rates decimals
        pure { state with activeSegmentFrom := some fromBlock, activeIntegral := 0 }
      else pure state : ScoreCall AccountScoreState) = .ok next) :
    next.activeSegmentFrom = some fromBlock := by
  rcases (ite_ok_iff _ _ _ _).mp ran with ⟨-, ran⟩ | ⟨active, ran⟩
  · obtain ⟨closed, -, result⟩ := (bind_ok_iff _ _ _).mp ran
    cases (pure_ok_iff _ _).mp result
    rfl
  · cases (pure_ok_iff _ _).mp ran
    exact not_not.mp active

theorem advanceSegment_started {rates : List RatePoint} {next : AccountScoreState}
    {segment : RatePoint × Option Nat} (started : StartedBy toBlock state)
    (ran : advanceSegment rates decimals toBlock state segment = .ok next) :
    StartedBy toBlock next := by
  unfold advanceSegment at ran
  rcases (ite_ok_iff _ _ _ _).mp ran with ⟨-, ran⟩ | ⟨meets, ran⟩
  · cases (pure_ok_iff _ _).mp ran
    exact started
  · obtain ⟨opened, openRun, ran⟩ := (bind_ok_iff _ _ _).mp ran
    rcases (ite_ok_iff _ _ _ _).mp ran with ⟨-, ran⟩ | ⟨-, ran⟩
    · intro fromBlock active
      rw [finalizeActive_inactive ran] at active
      cases active
    · cases (pure_ok_iff _ _).mp ran
      intro fromBlock active
      cases (openSegment_started openRun).symm.trans active
      have inside := overlapTo_le segment.2 toBlock
      omega

/-- One iteration with the longer list does what it does with the shorter one. -/
theorem advanceSegment_known (later : ∀ point ∈ more, toBlock < point.fromBlock)
    (started : StartedBy toBlock state) (point : RatePoint) {longer shorter : Option Nat}
    (same : SameEnd toBlock longer shorter) :
    advanceSegment (known ++ more) decimals toBlock state (point, longer) =
      advanceSegment known decimals toBlock state (point, shorter) := by
  unfold advanceSegment
  dsimp only
  rw [same.overlapTo_eq, same.any_eq, finalizeActive_known later started]
  split
  · rfl
  next meets =>
    have inside := overlapTo_le shorter toBlock
    refine bind_congr_ok fun opened openRun => ?_
    have active := openSegment_started openRun
    split
    · apply finalizeActive_known later
      intro fromBlock isActive
      cases active.symm.trans isActive
      omega
    · rfl

theorem advanceSegments_late {rates : List RatePoint} {later : List (RatePoint × Option Nat)}
    (late : ∀ segment ∈ later, toBlock < segment.1.fromBlock) :
    later.foldlM (advanceSegment rates decimals toBlock) state = .ok state := by
  induction later with
  | nil => rfl
  | cons segment rest ih =>
      rw [List.foldlM_cons, advanceSegment_late (late segment List.mem_cons_self)]
      exact ih fun other member => late other (List.mem_cons_of_mem segment member)

theorem advanceSegments_known (later : ∀ point ∈ more, toBlock < point.fromBlock)
    (rates : List RatePoint) (started : StartedBy toBlock state) :
    (segments (rates ++ more)).foldlM (advanceSegment (known ++ more) decimals toBlock) state =
      (segments rates).foldlM (advanceSegment known decimals toBlock) state := by
  induction rates generalizing state with
  | nil =>
      apply advanceSegments_late
      intro segment member
      exact later segment.1 (mem_of_segment member)
  | cons point rest ih =>
      have same : SameEnd toBlock ((rest ++ more).head?.map RatePoint.fromBlock)
          (rest.head?.map RatePoint.fromBlock) := by
        cases rest with
        | cons second rest => exact .inl rfl
        | nil =>
            cases more with
            | nil => exact .inl rfl
            | cons first others =>
                exact .inr ⟨rfl, first.fromBlock, rfl, later first List.mem_cons_self⟩
      rw [List.cons_append, segments, segments, List.foldlM_cons, List.foldlM_cons,
        advanceSegment_known later started point same]
      exact bind_congr_ok fun next ran => ih (advanceSegment_started started ran)

/-- Rate points after the block an account is advanced to do not matter. -/
theorem advanceAccount_known {rates : List RatePoint} (ascending : Ascending rates)
    (knownAt : KnownAt rates toBlock known) (started : StartedBy toBlock state) :
    advanceAccount state toBlock known decimals = advanceAccount state toBlock rates decimals := by
  obtain ⟨more, rfl, later⟩ := knownAt
  unfold advanceAccount validateRates
  simp only [revertIf, ascending, ascending_known ascending, not_true_eq_false, if_false,
    advanceSegments_known later known started]

theorem advanceAccount_started {rates : List RatePoint} {next : AccountScoreState}
    (started : StartedBy toBlock state)
    (ran : advanceAccount state toBlock rates decimals = .ok next) : StartedBy toBlock next := by
  unfold advanceAccount at ran
  obtain ⟨_, -, ran⟩ := (bind_ok_iff _ _ _).mp ran
  obtain ⟨_, -, ran⟩ := (bind_ok_iff _ _ _).mp ran
  rcases (ite_ok_iff _ _ _ _).mp ran with ⟨-, ran⟩ | ⟨-, ran⟩
  · cases (pure_ok_iff _ _).mp ran
    exact started
  · obtain ⟨final, loop, result⟩ := (bind_ok_iff _ _ _).mp ran
    cases (pure_ok_iff _ _).mp result
    have kept : StartedBy toBlock final := foldlM_preserves _ (StartedBy toBlock)
      (fun _ _ _ holds step => advanceSegment_started holds step) _ _ _ started loop
    exact kept

theorem projectedNumerator_known {rates : List RatePoint} (ascending : Ascending rates)
    (knownAt : KnownAt rates toBlock known) (started : StartedBy toBlock state) :
    projectedNumerator state toBlock known decimals =
      projectedNumerator state toBlock rates decimals := by
  unfold projectedNumerator
  rw [advanceAccount_known ascending knownAt started]
  refine bind_congr_ok fun projected ran => ?_
  have projectedStarted := advanceAccount_started started ran
  obtain ⟨more, rfl, later⟩ := knownAt
  cases active : projected.activeSegmentFrom with
  | none => rfl
  | some fromBlock => simp only [rateFor_known later (projectedStarted fromBlock active)]

end Known

/-! ## Histories -/

inductive ScoreOp where
  | advance (toBlock : Nat)
  | transfer (block inflow outflow : Nat)
  deriving DecidableEq

def ScoreOp.block : ScoreOp → Nat
  | .advance toBlock => toBlock
  | .transfer block _ _ => block

/-- The balance an operation leaves. -/
def ScoreOp.credit (balance : Nat) : ScoreOp → Nat
  | .advance _ => balance
  | .transfer _ inflow outflow => balance + inflow - outflow

/-- An operation with the rate list it is made with. -/
structure ScoreUpdate where
  rates : List RatePoint
  op : ScoreOp
  deriving DecidableEq

def ScoreUpdate.apply (decimals : Nat) (state : AccountScoreState) (update : ScoreUpdate) :
    ScoreCall AccountScoreState :=
  match update.op with
  | .advance toBlock => advanceAccount state toBlock update.rates decimals
  | .transfer block inflow outflow =>
      applyTransfer state block inflow outflow update.rates decimals

/-- The balance after the operations up to `block`. -/
def balanceAt (balance : Nat) (ops : List ScoreOp) (block : Nat) : Nat :=
  (ops.filter fun op => op.block ≤ block).foldl ScoreOp.credit balance

/-- The balance an account that is tracked from `start` on holds during `block`. -/
def heldDuring (balance start : Nat) (ops : List ScoreOp) (block : Nat) : Nat :=
  if block < start then 0 else balanceAt balance ops block

/-- No operation goes back in time. -/
def Timely : Nat → List ScoreOp → Prop
  | _, [] => True
  | last, op :: rest => last ≤ op.block ∧ Timely op.block rest

/-- No transfer takes more than there is. -/
def Covered : Nat → List ScoreOp → Prop
  | _, [] => True
  | balance, op :: rest =>
      (∀ block inflow outflow, op = .transfer block inflow outflow →
        outflow ≤ balance + inflow) ∧ Covered (op.credit balance) rest

/-- The same operations with further advances in between. -/
inductive AdvancesInserted : List ScoreUpdate → List ScoreUpdate → Prop
  | nil : AdvancesInserted [] []
  | keep (update : ScoreUpdate) {updates split : List ScoreUpdate}
      (rest : AdvancesInserted updates split) :
      AdvancesInserted (update :: updates) (update :: split)
  | advance (toBlock : Nat) (rates : List RatePoint) {updates split : List ScoreUpdate}
      (rest : AdvancesInserted updates split) :
      AdvancesInserted updates (⟨rates, .advance toBlock⟩ :: split)

section Histories

variable {held : Nat → Nat} {rates : List RatePoint} {decimals balance last : Nat}
  {ops : List ScoreOp} {updates split : List ScoreUpdate} {state next : AccountScoreState}

theorem Timely.le (timely : Timely last ops) : ∀ op ∈ ops, last ≤ op.block := by
  induction ops generalizing last with
  | nil => simp
  | cons first rest ih =>
      intro op member
      rcases List.mem_cons.mp member with rfl | later
      · exact timely.1
      · exact timely.1.trans (ih timely.2 op later)

theorem balanceAt_before {block : Nat} (timely : Timely last ops) (early : block < last) :
    balanceAt balance ops block = balance := by
  have nothing : (ops.filter fun op => op.block ≤ block) = [] := by
    rw [List.filter_eq_nil_iff]
    intro op member
    have after := timely.le op member
    simp
    omega
  rw [balanceAt, nothing, List.foldl_nil]

theorem balanceAt_cons {op : ScoreOp} {block : Nat} (reached : op.block ≤ block) :
    balanceAt balance (op :: ops) block = balanceAt (op.credit balance) ops block := by
  simp [balanceAt, reached]

theorem finalizeActive_frame (ran : finalizeActive state rates decimals = .ok next) :
    next.balance = state.balance ∧ next.lastBlock = state.lastBlock := by
  unfold finalizeActive at ran
  split at ran
  · cases (pure_ok_iff _ _).mp ran
    exact ⟨rfl, rfl⟩
  · obtain ⟨rate, -, result⟩ := (bind_ok_iff _ _ _).mp ran
    cases (pure_ok_iff _ _).mp result
    exact ⟨rfl, rfl⟩

theorem advanceSegment_frame {toBlock : Nat} {segment : RatePoint × Option Nat}
    (ran : advanceSegment rates decimals toBlock state segment = .ok next) :
    next.balance = state.balance ∧ next.lastBlock = state.lastBlock := by
  unfold advanceSegment at ran
  rcases (ite_ok_iff _ _ _ _).mp ran with ⟨-, ran⟩ | ⟨-, ran⟩
  · cases (pure_ok_iff _ _).mp ran
    exact ⟨rfl, rfl⟩
  obtain ⟨opened, openRun, ran⟩ := (bind_ok_iff _ _ _).mp ran
  have openFrame : opened.balance = state.balance ∧ opened.lastBlock = state.lastBlock := by
    rcases (ite_ok_iff _ _ _ _).mp openRun with ⟨-, openRun⟩ | ⟨-, openRun⟩
    · obtain ⟨closed, closeRun, result⟩ := (bind_ok_iff _ _ _).mp openRun
      cases (pure_ok_iff _ _).mp result
      have kept := finalizeActive_frame closeRun
      exact kept
    · cases (pure_ok_iff _ _).mp openRun
      exact ⟨rfl, rfl⟩
  rcases (ite_ok_iff _ _ _ _).mp ran with ⟨-, ran⟩ | ⟨-, ran⟩
  · obtain ⟨balanceEq, lastEq⟩ := finalizeActive_frame ran
    exact ⟨balanceEq.trans openFrame.1, lastEq.trans openFrame.2⟩
  · cases (pure_ok_iff _ _).mp ran
    exact openFrame

theorem advanceAccount_frame {toBlock : Nat}
    (ran : advanceAccount state toBlock rates decimals = .ok next) :
    state.lastBlock ≤ toBlock ∧ next.balance = state.balance ∧ next.lastBlock = toBlock := by
  unfold advanceAccount at ran
  obtain ⟨_, -, ran⟩ := (bind_ok_iff _ _ _).mp ran
  obtain ⟨_, forward, ran⟩ := (bind_ok_iff _ _ _).mp ran
  have notBack := not_lt.mp ((revertIf_ok_iff _ _ _).mp forward)
  rcases (ite_ok_iff _ _ _ _).mp ran with ⟨same, ran⟩ | ⟨-, ran⟩
  · cases (pure_ok_iff _ _).mp ran
    exact ⟨notBack, rfl, same.symm⟩
  · obtain ⟨final, loop, result⟩ := (bind_ok_iff _ _ _).mp ran
    cases (pure_ok_iff _ _).mp result
    have kept : final.balance = state.balance :=
      foldlM_preserves _ (fun later => later.balance = state.balance)
        (fun _ _ _ holds step => (advanceSegment_frame step).1.trans holds) _ _ _ rfl loop
    exact ⟨notBack, kept, rfl⟩

/-- An operation that succeeds does not go back and takes no more than there is. -/
theorem apply_frame {update : ScoreUpdate} (ran : update.apply decimals state = .ok next) :
    state.lastBlock ≤ update.op.block ∧
      (∀ block inflow outflow, update.op = .transfer block inflow outflow →
        outflow ≤ state.balance + inflow) ∧
      next.balance = update.op.credit state.balance ∧ next.lastBlock = update.op.block := by
  obtain ⟨known, op⟩ := update
  cases op with
  | advance toBlock =>
      obtain ⟨forward, balanceEq, lastEq⟩ := advanceAccount_frame ran
      exact ⟨forward, by simp, balanceEq, lastEq⟩
  | transfer block inflow outflow =>
      obtain ⟨advanced, advanceRun, ran⟩ := (bind_ok_iff _ _ _).mp ran
      obtain ⟨forward, balanceEq, lastEq⟩ := advanceAccount_frame advanceRun
      rcases (ite_ok_iff _ _ _ _).mp ran with ⟨grows, ran⟩ | ⟨shrinks, ran⟩
      · cases (pure_ok_iff _ _).mp ran
        refine ⟨forward, ?_, ?_, lastEq⟩
        · rintro _ _ _ ⟨⟩
          omega
        · simp only [ScoreOp.credit, balanceEq]
          omega
      · obtain ⟨_, checked, ran⟩ := (bind_ok_iff _ _ _).mp ran
        have enough := not_lt.mp ((revertIf_ok_iff _ _ _).mp checked)
        cases (pure_ok_iff _ _).mp ran
        refine ⟨forward, ?_, ?_, lastEq⟩
        · rintro _ _ _ ⟨⟩
          omega
        · simp only [ScoreOp.credit, balanceEq]
          omega

theorem updates_frame (ran : updates.foldlM (ScoreUpdate.apply decimals) state = .ok next) :
    Timely state.lastBlock (updates.map ScoreUpdate.op) ∧
      Covered state.balance (updates.map ScoreUpdate.op) := by
  induction updates generalizing state with
  | nil => exact ⟨trivial, trivial⟩
  | cons update rest ih =>
      rw [List.foldlM_cons] at ran
      obtain ⟨middle, first, ran⟩ := (bind_ok_iff _ _ _).mp ran
      obtain ⟨forward, enough, balanceEq, lastEq⟩ := apply_frame first
      obtain ⟨timely, covered⟩ := ih ran
      rw [lastEq] at timely
      rw [balanceEq] at covered
      exact ⟨⟨forward, timely⟩, ⟨enough, covered⟩⟩

/-- Conversely an operation that does neither succeeds, and keeps what is accumulated. -/
theorem apply_accumulates {update : ScoreUpdate} (ascending : Ascending rates)
    (known : KnownAt rates update.op.block update.rates)
    (forward : state.lastBlock ≤ update.op.block)
    (enough : ∀ block inflow outflow, update.op = .transfer block inflow outflow →
      outflow ≤ state.balance + inflow)
    (constant : ∀ block, state.lastBlock ≤ block → block < update.op.block →
      held block = state.balance)
    (accumulated : Accumulated held rates decimals state) :
    ∃ after, update.apply decimals state = .ok after ∧
      after.balance = update.op.credit state.balance ∧ after.lastBlock = update.op.block ∧
      Accumulated held rates decimals after := by
  have started : StartedBy update.op.block state := fun fromBlock active =>
    (accumulated.started fromBlock active).trans forward
  obtain ⟨advanced, ran, balanceEq, lastEq, reached⟩ :=
    advanceAccount_accumulates ascending forward constant accumulated
  rw [← advanceAccount_known ascending known started] at ran
  obtain ⟨known', op⟩ := update
  cases op with
  | advance toBlock => exact ⟨advanced, ran, balanceEq, lastEq, reached⟩
  | transfer block inflow outflow =>
      have covers := enough block inflow outflow rfl
      let after : AccountScoreState :=
        { advanced with balance := state.balance + inflow - outflow }
      have stays : Accumulated held rates decimals after :=
        ⟨reached.total, reached.started, reached.integrated⟩
      refine ⟨after, (bind_ok_iff _ _ _).mpr ⟨advanced, ran, ?_⟩, rfl, lastEq, stays⟩
      rw [ite_ok_iff]
      by_cases grows : outflow ≤ inflow
      · refine .inl ⟨grows, (pure_ok_iff _ _).mpr ?_⟩
        simp only [after, balanceEq, AccountScoreState.mk.injEq, and_true]
        omega
      · refine .inr ⟨grows, (bind_ok_iff _ _ _).mpr ⟨(), ?_, (pure_ok_iff _ _).mpr ?_⟩⟩
        · rw [revertIf_ok_iff]
          omega
        · simp only [after, balanceEq, AccountScoreState.mk.injEq, and_true]
          omega

theorem updates_accumulate (ascending : Ascending rates)
    (known : ∀ update ∈ updates, KnownAt rates update.op.block update.rates)
    (timely : Timely state.lastBlock (updates.map ScoreUpdate.op))
    (covered : Covered state.balance (updates.map ScoreUpdate.op))
    (agrees : ∀ block, state.lastBlock ≤ block →
      held block = balanceAt state.balance (updates.map ScoreUpdate.op) block)
    (accumulated : Accumulated held rates decimals state) :
    ∃ final, updates.foldlM (ScoreUpdate.apply decimals) state = .ok final ∧
      Accumulated held rates decimals final ∧
      ∀ block, final.lastBlock ≤ block → held block = final.balance := by
  induction updates generalizing state with
  | nil => exact ⟨state, rfl, accumulated, agrees⟩
  | cons update rest ih =>
      obtain ⟨forward, timely⟩ := timely
      obtain ⟨enough, covered⟩ := covered
      have constant : ∀ block, state.lastBlock ≤ block → block < update.op.block →
          held block = state.balance := by
        intro block reached early
        have all : Timely update.op.block ((update :: rest).map ScoreUpdate.op) :=
          ⟨le_rfl, timely⟩
        rw [agrees block reached, balanceAt_before all early]
      obtain ⟨after, ran, balanceEq, lastEq, reached⟩ := apply_accumulates ascending
        (known update List.mem_cons_self) forward enough constant accumulated
      obtain ⟨final, later, accumulatedFinal, agreesFinal⟩ := ih
        (fun other member => known other (List.mem_cons_of_mem update member))
        (by rw [lastEq]; exact timely) (by rw [balanceEq]; exact covered)
        (by
          intro block passed
          rw [lastEq] at passed
          rw [agrees block (forward.trans passed), List.map_cons, balanceAt_cons passed,
            balanceEq])
        reached
      refine ⟨final, ?_, accumulatedFinal, agreesFinal⟩
      rw [List.foldlM_cons]
      exact (bind_ok_iff _ _ _).mpr ⟨after, ran, later⟩

theorem fresh_accumulated (start : Nat) (nothing : ∀ block, block < start → held block = 0) :
    Accumulated held rates decimals (.fresh balance start) := by
  have zero : ∀ segment : RatePoint × Option Nat, segmentIntegral held start segment = 0 := by
    intro segment
    apply Finset.sum_eq_zero
    intro block member
    have inside := overlapTo_le segment.2 start
    rw [Finset.mem_Ico] at member
    exact nothing block (by omega)
  refine ⟨⟨0, rfl, ?_⟩, ?_, ?_⟩
  · symm
    apply List.sum_eq_zero
    intro part member
    obtain ⟨segment, -, rfl⟩ := List.mem_map.mp member
    simp [segmentNumerator, AccountScoreState.fresh, zero]
  · intro fromBlock active
    cases active
  · intro segment _ _
    exact zero segment

theorem AdvancesInserted.balanceAt_eq (inserted : AdvancesInserted updates split) (block : Nat) :
    balanceAt balance (split.map ScoreUpdate.op) block =
      balanceAt balance (updates.map ScoreUpdate.op) block := by
  induction inserted generalizing balance with
  | nil => rfl
  | keep update rest ih =>
      unfold balanceAt at ih ⊢
      simp only [List.map_cons, List.filter_cons]
      split
      · exact ih
      · exact ih
  | advance toBlock known rest ih =>
      unfold balanceAt at ih ⊢
      simp only [List.map_cons, List.filter_cons]
      split
      · exact ih
      · exact ih

theorem AdvancesInserted.covered (inserted : AdvancesInserted updates split)
    (covered : Covered balance (updates.map ScoreUpdate.op)) :
    Covered balance (split.map ScoreUpdate.op) := by
  induction inserted generalizing balance with
  | nil => trivial
  | keep update rest ih => exact ⟨covered.1, ih covered.2⟩
  | advance toBlock known rest ih => exact ⟨by simp, ih covered⟩

/-- What a history that is in time and covered projects. -/
theorem history_projects (ascending : Ascending rates) {start : Nat}
    (known : ∀ update ∈ updates, KnownAt rates update.op.block update.rates)
    (timely : Timely start (updates.map ScoreUpdate.op))
    (covered : Covered balance (updates.map ScoreUpdate.op)) :
    ∃ final, updates.foldlM (ScoreUpdate.apply decimals) (.fresh balance start) = .ok final ∧
      ∀ toBlock late, final.lastBlock ≤ toBlock → KnownAt rates toBlock late →
        projectedNumerator final toBlock late decimals =
          .ok (expectedNumerator (heldDuring balance start (updates.map ScoreUpdate.op))
            decimals rates toBlock) := by
  have empty : Accumulated (heldDuring balance start (updates.map ScoreUpdate.op)) rates decimals
      (.fresh balance start) := fresh_accumulated start fun block early => if_pos early
  have follows : ∀ block, (AccountScoreState.fresh balance start).lastBlock ≤ block →
      heldDuring balance start (updates.map ScoreUpdate.op) block =
        balanceAt (AccountScoreState.fresh balance start).balance
          (updates.map ScoreUpdate.op) block :=
    fun block reached => if_neg (Nat.not_lt.mpr reached)
  obtain ⟨final, ran, accumulated, agrees⟩ := updates_accumulate
    ascending known timely covered follows empty
  refine ⟨final, ran, fun toBlock late forward knownLate => ?_⟩
  have started : StartedBy toBlock final := fun fromBlock active =>
    (accumulated.started fromBlock active).trans forward
  rw [projectedNumerator_known ascending knownLate started]
  exact projectedNumerator_accumulates ascending forward
    (fun block reached _ => agrees block reached) accumulated

/-- A state reached from a fresh one projects, at every later block, the sum over the rate
segments of the rate times the scaled integral of the balance held; and with advances
inserted anywhere, made with the rates known there, the projections stay the same. -/
theorem score_split_law (ascending : Ascending rates) {start : Nat}
    (known : ∀ update ∈ updates, KnownAt rates update.op.block update.rates)
    (run : updates.foldlM (ScoreUpdate.apply decimals) (.fresh balance start) = .ok state) :
    (∀ toBlock late, state.lastBlock ≤ toBlock → KnownAt rates toBlock late →
        projectedNumerator state toBlock late decimals =
          .ok (expectedNumerator (heldDuring balance start (updates.map ScoreUpdate.op))
            decimals rates toBlock)) ∧
      ∀ split, AdvancesInserted updates split →
        (∀ update ∈ split, KnownAt rates update.op.block update.rates) →
        Timely start (split.map ScoreUpdate.op) →
        ∃ splitState,
          split.foldlM (ScoreUpdate.apply decimals) (.fresh balance start) = .ok splitState ∧
          ∀ toBlock late, state.lastBlock ≤ toBlock → splitState.lastBlock ≤ toBlock →
            KnownAt rates toBlock late →
            projectedNumerator splitState toBlock late decimals =
              projectedNumerator state toBlock late decimals := by
  have frame : Timely start (updates.map ScoreUpdate.op) ∧
      Covered balance (updates.map ScoreUpdate.op) := updates_frame run
  obtain ⟨timely, covered⟩ := frame
  have projects : ∀ toBlock late, state.lastBlock ≤ toBlock → KnownAt rates toBlock late →
      projectedNumerator state toBlock late decimals =
        .ok (expectedNumerator (heldDuring balance start (updates.map ScoreUpdate.op))
          decimals rates toBlock) := by
    obtain ⟨final, ran, projects⟩ := history_projects ascending known timely covered
    cases run.symm.trans ran
    exact projects
  refine ⟨projects, fun split inserted splitKnown splitTimely => ?_⟩
  have splitHistory : ∃ final, split.foldlM (ScoreUpdate.apply decimals) (.fresh balance start) =
      .ok final ∧ ∀ toBlock late, final.lastBlock ≤ toBlock → KnownAt rates toBlock late →
        projectedNumerator final toBlock late decimals =
          .ok (expectedNumerator (heldDuring balance start (split.map ScoreUpdate.op))
            decimals rates toBlock) :=
    history_projects ascending splitKnown splitTimely (inserted.covered covered)
  obtain ⟨splitState, ran, splitProjects⟩ := splitHistory
  refine ⟨splitState, ran, fun toBlock late forward splitForward knownLate => ?_⟩
  have sameHeld : heldDuring balance start (split.map ScoreUpdate.op) =
      heldDuring balance start (updates.map ScoreUpdate.op) := by
    funext block
    unfold heldDuring
    rw [inserted.balanceAt_eq]
  rw [splitProjects toBlock late splitForward knownLate, projects toBlock late forward knownLate,
    sameHeld]

end Histories

/-! ## A small history -/

namespace SmallHistory

def first : RatePoint := ⟨2, 2 * 10 ^ 18⟩
def second : RatePoint := ⟨6, 10 ^ 18⟩

/-- A transfer out, an advance with the first rate point only, a transfer in. -/
def updates : List ScoreUpdate :=
  [⟨[first, second], .transfer 4 0 40⟩, ⟨[first, second], .transfer 8 10 0⟩]

def split : List ScoreUpdate :=
  [⟨[first, second], .transfer 4 0 40⟩, ⟨[first], .advance 5⟩,
    ⟨[first, second], .transfer 8 10 0⟩]

end SmallHistory

/-- The history of 900 scores, cut at block 5 before its second rate point was known. -/
theorem smallHistory_split :
    ∃ state splitState,
      SmallHistory.updates.foldlM (ScoreUpdate.apply 18) (.fresh 100 2) = .ok state ∧
      SmallHistory.split.foldlM (ScoreUpdate.apply 18) (.fresh 100 2) = .ok splitState ∧
      projectedNumerator splitState 10 [SmallHistory.first, SmallHistory.second] 18 =
        projectedNumerator state 10 [SmallHistory.first, SmallHistory.second] 18 ∧
      projectedNumerator state 10 [SmallHistory.first, SmallHistory.second] 18 =
        .ok (900 * 10 ^ 18) := by
  let rates := [SmallHistory.first, SmallHistory.second]
  have early : KnownAt rates 5 [SmallHistory.first] :=
    ⟨[SmallHistory.second], rfl, by simp [SmallHistory.second]⟩
  have known : ∀ update ∈ SmallHistory.updates, KnownAt rates update.op.block update.rates := by
    simp only [SmallHistory.updates, List.forall_mem_cons]
    exact ⟨.refl rates 4, .refl rates 8, by simp⟩
  have splitKnown : ∀ update ∈ SmallHistory.split,
      KnownAt rates update.op.block update.rates := by
    simp only [SmallHistory.split, List.forall_mem_cons]
    exact ⟨.refl rates 4, early, .refl rates 8, by simp⟩
  have inserted : AdvancesInserted SmallHistory.updates SmallHistory.split :=
    .keep _ (.advance 5 _ (.keep _ .nil))
  have ran : SmallHistory.updates.foldlM (ScoreUpdate.apply 18) (.fresh 100 2) =
      .ok ⟨70, 8, 640 * 10 ^ 18, some 6, 120⟩ := by decide +kernel
  obtain ⟨-, splits⟩ := score_split_law (by decide) known ran
  obtain ⟨splitState, splitRan, same⟩ := splits SmallHistory.split inserted splitKnown
    (by simp [SmallHistory.split, Timely, ScoreOp.block])
  have last : splitState.lastBlock = 8 := by
    have reached : SmallHistory.split.foldlM (ScoreUpdate.apply 18) (.fresh 100 2) =
        .ok ⟨70, 8, 640 * 10 ^ 18, some 6, 120⟩ := by decide +kernel
    cases reached.symm.trans splitRan
    rfl
  exact ⟨_, splitState, ran, splitRan, same 10 rates (by decide) (by omega) (.refl rates 10),
    by decide +kernel⟩

end Usd8Core.Score
