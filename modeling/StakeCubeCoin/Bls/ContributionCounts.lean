import Mathlib.Algebra.BigOperators.Ring.Finset
import StakeCubeCoin.Bls.ContributionVerifier

namespace StakeCubeCoin.Bls

open Library BatchState Function List

/-!
# Counting what is verified

Three counters decide who goes on: the entries of a vector that are aggregated, the two
aggregations of a batch, and the shares that are verified.  What is counted and what is still
pending add up to a constant, so the last one to count finds everything done, and there is one
last one.
-/

namespace ContributionVerifier

variable {Scalar Point : Type} (verifier : ContributionVerifier Scalar Point)

/-- The entries of the vector of a batch that a job still has to count. -/
def entryWeight (batchIdx : Nat) : VerifierJob -> Nat
  | .asyncAggregate other => if batchIdx = other then verifier.vecSize else 0
  | .pushOrDoWork job => entryWeight batchIdx job
  | .aggregateEntry other _ => if batchIdx = other then 1 else 0
  | .checkDone other => if batchIdx = other then 1 else 0
  | _ => 0

/-- The aggregations of a batch that a job still has to count, apart from an unfinished vector. -/
def aggWeight (batchIdx : Nat) : VerifierJob -> Nat
  | .asyncAggregate other => if batchIdx = other then 1 else 0
  | .pushOrDoWork job => aggWeight batchIdx job
  | .handleAggVvecDone other => if batchIdx = other then 1 else 0
  | .aggregateSkShare other => if batchIdx = other then 1 else 0
  | .incAggDone other => if batchIdx = other then 1 else 0
  | _ => 0

def verifyWeight : VerifierJob -> Nat
  | .pushOrDoWork job => verifyWeight job
  | .handleAggDone batchIdx => verifier.count batchIdx
  | .aggregatedVerify batchIdx => verifier.count batchIdx
  | .asyncVerifyBatchOneByOne batchIdx => verifier.count batchIdx
  | .verifyOne _ _ => 1
  | .handleVerifyDone count => count
  | _ => 0

/-- The calls of the callback that a job still has to make. -/
def finishWeight : VerifierJob -> Nat
  | .pushOrDoWork job => finishWeight job
  | .finish => 1
  | _ => 0

variable (state : VerifierState Scalar Point) (batchIdx : Nat)
  (change : BatchState Scalar Point -> BatchState Scalar Point)

@[simp] theorem batchStates_updateBatch (other : Nat)
    (change : BatchState Scalar Point -> BatchState Scalar Point) :
    (updateBatch state batchIdx change).batchStates other =
      if other = batchIdx then change (state.batchStates other) else state.batchStates other := by
  refine (update_apply _ _ _ _).trans ?_
  split
  · next same => rw [same]
  · rfl

@[simp] theorem verifyDoneCount_updateBatch :
    (updateBatch state batchIdx change).verifyDoneCount = state.verifyDoneCount :=
  rfl

@[simp] theorem delivered_updateBatch :
    (updateBatch state batchIdx change).delivered = state.delivered :=
  rfl

def complete (doneCount : Nat) : Nat :=
  if doneCount = verifier.vecSize /\ 0 < verifier.vecSize then 1 else 0

def allVerified (verifyDoneCount : Nat) : Nat :=
  if verifyDoneCount = verifier.vvecs.length then 1 else 0

def waiting : Nat :=
  ∑ batchIdx ∈ Finset.range verifier.batchCount,
    if verifier.aggregated /\ (state.batchStates batchIdx).aggDone < 2 then verifier.count batchIdx
    else 0

/-- The batch is there, and batches are aggregated. -/
def Aggregated (batchIdx : Nat) : Prop :=
  verifier.aggregated = true /\ batchIdx < verifier.batchCount

/-- Jobs are for batches, entries and shares that are there. -/
def Placed : VerifierJob -> Prop
  | .pushOrDoWork job => Placed job
  | .aggregateEntry batchIdx entry => verifier.aggregated = true /\
    batchIdx < verifier.batchCount /\ entry < verifier.vecSize
  | .asyncAggregate batchIdx => Aggregated verifier batchIdx
  | .checkDone batchIdx => Aggregated verifier batchIdx
  | .handleAggVvecDone batchIdx => Aggregated verifier batchIdx
  | .aggregateSkShare batchIdx => Aggregated verifier batchIdx
  | .incAggDone batchIdx => Aggregated verifier batchIdx
  | .handleAggDone batchIdx => Aggregated verifier batchIdx
  | .aggregatedVerify batchIdx => Aggregated verifier batchIdx
  | .asyncVerifyBatchOneByOne batchIdx => batchIdx < verifier.batchCount
  | .verifyOne batchIdx index => batchIdx < verifier.batchCount /\ index < verifier.count batchIdx
  | .handleVerifyDone count => 0 < count
  | .finish => True

/-- What is counted and what is pending add up.  Each counter of the source, with the jobs that will
still count, makes up the number at which the next stage begins, so that it begins once. -/
structure Counted (state : VerifierState Scalar Point) (jobs : Multiset VerifierJob) : Prop where
  placed : ∀ job ∈ jobs, verifier.Placed job
  entries : ∀ batchIdx < verifier.batchCount, verifier.aggregated = true ->
    totalWeight (verifier.entryWeight batchIdx) jobs + (state.batchStates batchIdx).doneCount = verifier.vecSize
  aggs : ∀ batchIdx < verifier.batchCount, verifier.aggregated = true ->
    totalWeight (aggWeight batchIdx) jobs + (state.batchStates batchIdx).aggDone =
      1 + verifier.complete (state.batchStates batchIdx).doneCount
  shares : totalWeight verifier.verifyWeight jobs + verifier.waiting state + state.verifyDoneCount =
    verifier.vvecs.length
  calls : totalWeight finishWeight jobs + state.delivered.length =
    verifier.allVerified state.verifyDoneCount

variable {verifier}

theorem count_pos (nonempty : verifier.vvecs ≠ []) {batchIdx : Nat}
    (inside : batchIdx < verifier.batchCount) :
    0 < verifier.count batchIdx := by
  have some_ := length_pos_iff.mpr nonempty
  unfold count start
  cases aggregated : verifier.aggregated with
  | true =>
    simp only [batchCount, batchSize, aggregated, if_true] at inside ⊢
    omega
  | false =>
    simp only [batchCount, batchSize, aggregated, Bool.false_eq_true, if_false] at inside ⊢
    have first : batchIdx = 0 := by omega
    subst first
    omega

theorem complete_le (doneCount : Nat) : verifier.complete doneCount <= 1 := by
  unfold complete
  split <;> omega

theorem batch_of_index {index : Nat} (inside : index < verifier.vvecs.length) :
    index / verifier.batchSize < verifier.batchCount /\
      index % verifier.batchSize < verifier.count (index / verifier.batchSize) := by
  unfold count start
  cases aggregated : verifier.aggregated with
  | true =>
    simp only [batchCount, batchSize, aggregated, if_true]
    omega
  | false =>
    simp only [batchCount, batchSize, aggregated, Bool.false_eq_true, if_false]
    rw [Nat.div_eq_of_lt inside, Nat.mod_eq_of_lt inside]
    omega

variable [CommRing Scalar] [AddCommGroup Point] [Module Scalar Point] [DecidableEq Point] (verifier)

/-- The aggregated key of an entry of the vectors of a batch, unless an assertion fails. -/
def aggregatedKey (entry : Nat) : Option (PublicKey Point) :=
  syncAggregate ((verifier.batchVvecs batchIdx).map fun vvec => vvec.getD entry none)

/-- The aggregated share of a batch, unless an assertion fails. -/
def aggregatedShare : Option (SecretKey Scalar) :=
  syncAggregate (verifier.batchShares batchIdx)

/-- What a job does if no assertion fails: the state afterwards and the jobs that are added. -/
inductive Does (state : VerifierState Scalar Point) :
    VerifierJob -> VerifierState Scalar Point -> Multiset VerifierJob -> Prop
  | asyncAggregate (batchIdx : Nat) : Does state (.asyncAggregate batchIdx) state
      (((List.range verifier.vecSize).map fun entry => VerifierJob.pushOrDoWork (.aggregateEntry batchIdx entry)) ++
        [.pushOrDoWork (.aggregateSkShare batchIdx)] : List VerifierJob)
  | pushOrDoWork (job : VerifierJob) :
    Does state (.pushOrDoWork job) state ([job] : List VerifierJob)
  | aggregateEntry (batchIdx entry : Nat) (key : PublicKey Point)
    (found : verifier.aggregatedKey batchIdx entry = some key) :
    Does state (.aggregateEntry batchIdx entry)
      (updateBatch state batchIdx fun batch => { batch with result := Function.update batch.result entry key })
      ([.checkDone batchIdx] : List VerifierJob)
  | checkDone (batchIdx : Nat) (more : (state.batchStates batchIdx).doneCount + 1 ≠
    verifier.vecSize) :
    Does state (.checkDone batchIdx)
      (updateBatch state batchIdx fun batch => { batch with doneCount := batch.doneCount + 1 }) 0
  | lastEntry (batchIdx : Nat) (last : (state.batchStates batchIdx).doneCount + 1 =
    verifier.vecSize) :
    Does state (.checkDone batchIdx)
      (updateBatch state batchIdx fun batch => { batch with doneCount := batch.doneCount + 1 })
      ([.handleAggVvecDone batchIdx] : List VerifierJob)
  | handleAggVvecDone (batchIdx : Nat) :
    Does state (.handleAggVvecDone batchIdx)
      (updateBatch state batchIdx fun batch =>
        { batch with vvec := some ((List.range verifier.vecSize).map batch.result) })
      ([.incAggDone batchIdx] : List VerifierJob)
  | aggregateSkShare (batchIdx : Nat) (key : SecretKey Scalar)
    (found : verifier.aggregatedShare batchIdx = some key) :
    Does state (.aggregateSkShare batchIdx)
      (updateBatch state batchIdx fun batch => { batch with skShare := key })
      ([.incAggDone batchIdx] : List VerifierJob)
  | incAggDone (batchIdx : Nat) (more : (state.batchStates batchIdx).aggDone + 1 ≠ 2) :
    Does state (.incAggDone batchIdx)
      (updateBatch state batchIdx fun batch => { batch with aggDone := batch.aggDone + 1 }) 0
  | lastAgg (batchIdx : Nat) (last : (state.batchStates batchIdx).aggDone + 1 = 2) :
    Does state (.incAggDone batchIdx)
      (updateBatch state batchIdx fun batch => { batch with aggDone := batch.aggDone + 1 })
      ([.handleAggDone batchIdx] : List VerifierJob)
  | unusable (batchIdx : Nat)
    (broken : (((state.batchStates batchIdx).vvec.getD []).isEmpty ||
      (state.batchStates batchIdx).skShare.isNone) = true) :
    Does state (.handleAggDone batchIdx)
      (updateBatch state batchIdx fun batch => { batch with verifyResults := fun _ => false })
      ([.handleVerifyDone (verifier.count batchIdx)] : List VerifierJob)
  | handleAggDone (batchIdx : Nat)
    (usable : (((state.batchStates batchIdx).vvec.getD []).isEmpty ||
      (state.batchStates batchIdx).skShare.isNone) = false) :
    Does state (.handleAggDone batchIdx) state
      ([.pushOrDoWork (.aggregatedVerify batchIdx)] : List VerifierJob)
  | wholeBatch (batchIdx : Nat)
    (verified : verify verifier.group verifier.forId ((state.batchStates batchIdx).vvec.getD [])
      (state.batchStates batchIdx).skShare = true) :
    Does state (.aggregatedVerify batchIdx)
      (updateBatch state batchIdx fun batch => { batch with verifyResults := fun _ => true })
      ([.handleVerifyDone (verifier.count batchIdx)] : List VerifierJob)
  | fallBack (batchIdx : Nat)
    (wrong : verify verifier.group verifier.forId ((state.batchStates batchIdx).vvec.getD [])
      (state.batchStates batchIdx).skShare = false) :
    Does state (.aggregatedVerify batchIdx) state
      ([.asyncVerifyBatchOneByOne batchIdx] : List VerifierJob)
  | asyncVerifyBatchOneByOne (batchIdx : Nat) :
    Does state (.asyncVerifyBatchOneByOne batchIdx)
      (updateBatch state batchIdx fun batch => { batch with verifyResults := fun _ => false })
      ((List.range (verifier.count batchIdx)).map fun index =>
        VerifierJob.pushOrDoWork (.verifyOne batchIdx index) : List VerifierJob)
  | verifyOne (batchIdx index : Nat) :
    Does state (.verifyOne batchIdx index)
      (updateBatch state batchIdx fun batch =>
        { batch with
          verifyResults := Function.update batch.verifyResults index
            (verify verifier.group verifier.forId (verifier.vvecs.getD (verifier.start batchIdx + index) [])
              (verifier.skShares.getD (verifier.start batchIdx + index) none)) })
      ([.handleVerifyDone 1] : List VerifierJob)
  | handleVerifyDone (count : Nat) (more : state.verifyDoneCount + count ≠ verifier.vvecs.length) :
    Does state (.handleVerifyDone count)
      { state with verifyDoneCount := state.verifyDoneCount + count } 0
  | lastShare (count : Nat) (last : state.verifyDoneCount + count = verifier.vvecs.length) :
    Does state (.handleVerifyDone count)
      { state with verifyDoneCount := state.verifyDoneCount + count } ([.finish] : List VerifierJob)
  | finish :
    Does state .finish { state with delivered := state.delivered ++ [verifier.collect state] } 0

def Fails : VerifierJob -> Prop
  | .aggregateEntry batchIdx entry => verifier.aggregatedKey batchIdx entry = none
  | .aggregateSkShare batchIdx => verifier.aggregatedShare batchIdx = none
  | _ => False

theorem work_cases (job : VerifierJob) :
    verifier.Does state job (verifier.work state job).shared (verifier.work state job).added \/
      verifier.Fails job /\ (verifier.work state job).shared =
        { state with assertionFailed := true } /\ (verifier.work state job).added = 0 := by
  cases job with
  | asyncAggregate batchIdx =>
    rw [work, Effect.added, Multiset.coe_nil, add_zero]
    exact .inl (.asyncAggregate batchIdx)
  | pushOrDoWork job =>
    rw [work]
    cases verifier.parallel with
    | true => exact .inl (.pushOrDoWork job)
    | false => exact .inl (.pushOrDoWork job)
  | aggregateEntry batchIdx entry =>
    rw [work]
    split
    · next fails => exact .inr ⟨fails, rfl, rfl⟩
    · next key found => exact .inl (.aggregateEntry batchIdx entry key found)
  | checkDone batchIdx =>
    rw [work]
    split
    · next last => exact .inl (.lastEntry batchIdx last)
    · next more => exact .inl (.checkDone batchIdx more)
  | handleAggVvecDone batchIdx => exact .inl (.handleAggVvecDone batchIdx)
  | aggregateSkShare batchIdx =>
    rw [work]
    split
    · next fails => exact .inr ⟨fails, rfl, rfl⟩
    · next key found => exact .inl (.aggregateSkShare batchIdx key found)
  | incAggDone batchIdx =>
    rw [work]
    split
    · next last => exact .inl (.lastAgg batchIdx last)
    · next more => exact .inl (.incAggDone batchIdx more)
  | handleAggDone batchIdx =>
    rw [work]
    split
    · next useless => exact .inl (.unusable batchIdx useless)
    · next usable => exact .inl (.handleAggDone batchIdx (Bool.eq_false_iff.mpr usable))
  | aggregatedVerify batchIdx =>
    rw [work]
    split
    · next verified => exact .inl (.wholeBatch batchIdx verified)
    · next wrong => exact .inl (.fallBack batchIdx (Bool.eq_false_iff.mpr wrong))
  | asyncVerifyBatchOneByOne batchIdx =>
    rw [work, Effect.added, Multiset.coe_nil, add_zero]
    exact .inl (.asyncVerifyBatchOneByOne batchIdx)
  | verifyOne batchIdx index => exact .inl (.verifyOne batchIdx index)
  | handleVerifyDone count =>
    rw [work]
    split
    · next last => exact .inl (.lastShare count last)
    · next more => exact .inl (.handleVerifyDone count more)
  | finish => exact .inl .finish

variable {verifier}

variable {state after : VerifierState Scalar Point} {job : VerifierJob}
  {added others : Multiset VerifierJob}

section

variable (does : verifier.Does state job after added)

include does

theorem Does.assertionFailed : after.assertionFailed = state.assertionFailed := by
  cases does <;> rfl

theorem Does.entries (batchIdx : Nat) :
    totalWeight (verifier.entryWeight batchIdx) added + (after.batchStates batchIdx).doneCount =
      verifier.entryWeight batchIdx job + (state.batchStates batchIdx).doneCount := by
  cases does with
  | checkDone other _ =>
    simp only [totalWeight_zero, batchStates_updateBatch, entryWeight, apply_ite doneCount]
    split <;> omega
  | lastEntry other _ =>
    simp only [Multiset.coe_singleton, totalWeight_singleton, batchStates_updateBatch, entryWeight,
      apply_ite doneCount]
    split <;> omega
  | _ => simp [entryWeight, comp_def, apply_ite doneCount]

/-- The two aggregations are counted once, the vector when all entries were counted. -/
theorem Does.aggs (batchIdx : Nat)
    (bounded : verifier.entryWeight batchIdx job + (state.batchStates batchIdx).doneCount <= verifier.vecSize) :
    totalWeight (aggWeight batchIdx) added + (after.batchStates batchIdx).aggDone +
      verifier.complete (state.batchStates batchIdx).doneCount =
      aggWeight batchIdx job + (state.batchStates batchIdx).aggDone +
        verifier.complete (after.batchStates batchIdx).doneCount := by
  cases does with
  | checkDone other more =>
    simp only [entryWeight] at bounded
    simp only [totalWeight_zero, batchStates_updateBatch, aggWeight, apply_ite doneCount,
      apply_ite aggDone, ite_self]
    split
    · next same =>
      subst same
      rw [if_pos rfl] at bounded
      unfold complete
      rw [if_neg (by omega), if_neg (by omega)]
    · rfl
  | lastEntry other last =>
    simp only [Multiset.coe_singleton, totalWeight_singleton, batchStates_updateBatch, aggWeight,
      apply_ite doneCount, apply_ite aggDone, ite_self]
    split
    · next same =>
      subst same
      unfold complete
      rw [if_neg (by omega), if_pos (by omega)]
      omega
    · omega
  | incAggDone other more =>
    simp only [totalWeight_zero, batchStates_updateBatch, aggWeight, apply_ite doneCount,
      apply_ite aggDone, ite_self]
    split <;> omega
  | lastAgg other last =>
    simp only [Multiset.coe_singleton, totalWeight_singleton, batchStates_updateBatch, aggWeight,
      apply_ite doneCount, apply_ite aggDone, ite_self]
    split <;> omega
  | _ =>
    simp [aggWeight, comp_def, apply_ite doneCount, apply_ite aggDone]

theorem Does.shares (placed : verifier.Placed job)
    (bounded : ∀ batchIdx, job = .incAggDone batchIdx -> (state.batchStates batchIdx).aggDone <= 1) :
    totalWeight verifier.verifyWeight added + verifier.waiting after + after.verifyDoneCount =
      verifier.verifyWeight job + verifier.waiting state + state.verifyDoneCount := by
  have unchanged : (∀ batchIdx, job ≠ .incAggDone batchIdx) ->
    verifier.waiting after = verifier.waiting state := by
    intro other
    unfold waiting
    congr 1
    funext batchIdx
    cases does with
    | incAggDone batchIdx more => exact absurd rfl (other batchIdx)
    | lastAgg batchIdx last => exact absurd rfl (other batchIdx)
    | _ => simp [apply_ite aggDone]
  cases does with
  | incAggDone other more =>
    have few := bounded other rfl
    have same : verifier.waiting (updateBatch state other fun batch => { batch with aggDone := batch.aggDone + 1 }) =
        verifier.waiting state := by
      refine Finset.sum_congr rfl fun batchIdx _ => ?_
      rw [batchStates_updateBatch]
      by_cases same : batchIdx = other
      · rw [same]
        simp [(by omega : (state.batchStates other).aggDone = 0)]
      · rw [if_neg same]
    rw [same]
    rfl
  | lastAgg other last =>
    -- The batch waits no longer.
    have less : verifier.waiting (updateBatch state other fun batch => { batch with aggDone := batch.aggDone + 1 }) +
        verifier.count other = verifier.waiting state := by
      have member := Finset.mem_range.mpr placed.2
      unfold waiting
      rw [<- Finset.sum_erase_add _ _ member, <- Finset.sum_erase_add (Finset.range verifier.batchCount) _ member]
      have here : (state.batchStates other).aggDone < 2 := by omega
      rw [Finset.sum_congr rfl fun batchIdx erased => by
        rw [batchStates_updateBatch, if_neg (Finset.ne_of_mem_erase erased)]]
      simp only [batchStates_updateBatch, if_true]
      rw [if_neg (by omega), if_pos ⟨placed.1, here⟩]
      omega
    simp only [Multiset.coe_singleton, totalWeight_singleton, verifyWeight]
    change _ + state.verifyDoneCount = _
    omega
  | handleVerifyDone count _ | lastShare count _ =>
    change 0 + verifier.waiting state + (state.verifyDoneCount + count) = _
    rw [verifyWeight]
    omega
  | _ =>
    rw [unchanged nofun]
    simp [verifyWeight, comp_def]

theorem Does.calls (placed : verifier.Placed job)
    (bounded : verifier.verifyWeight job + state.verifyDoneCount <= verifier.vvecs.length) :
    totalWeight finishWeight added + after.delivered.length + verifier.allVerified state.verifyDoneCount =
      finishWeight job + state.delivered.length + verifier.allVerified after.verifyDoneCount := by
  cases does with
  | handleVerifyDone count _ =>
    simp only [verifyWeight] at bounded
    simp only [totalWeight_zero, finishWeight, allVerified]
    rw [if_neg (by omega), if_neg (by omega)]
  | lastShare count _ =>
    have positive : 0 < count := placed
    simp only [Multiset.coe_singleton, totalWeight_singleton, finishWeight, allVerified]
    rw [if_neg (by omega), if_pos (by omega)]
    omega
  | _ => simp [finishWeight, comp_def, add_comm]

end

theorem forall_single {P : VerifierJob -> Prop} (holds : P job) :
    ∀ next ∈ (([job] : List VerifierJob) : Multiset VerifierJob), P next :=
  fun _ member => mem_singleton.mp member ▸ holds

theorem forall_none {P : VerifierJob -> Prop} : ∀ next ∈ (0 : Multiset VerifierJob), P next :=
  fun _ member => absurd member (Multiset.notMem_zero _)

theorem Does.placed (does : verifier.Does state job after added) (nonempty : verifier.vvecs ≠ [])
    (placed : verifier.Placed job) : ∀ next ∈ added, verifier.Placed next := by
  cases does with
  | asyncAggregate batchIdx =>
    intro next member
    rcases mem_append.mp member with entries | share
    · rcases mem_map.mp entries with ⟨entry, inside, rfl⟩
      exact ⟨placed.1, placed.2, mem_range.mp inside⟩
    · rw [mem_singleton.mp share]
      exact placed
  | asyncVerifyBatchOneByOne batchIdx =>
    intro next member
    rcases mem_map.mp member with ⟨index, inside, rfl⟩
    exact ⟨placed, mem_range.mp inside⟩
  | checkDone | incAggDone | handleVerifyDone | finish => exact forall_none
  | unusable | wholeBatch => exact forall_single (count_pos nonempty placed.2)
  | verifyOne batchIdx index => exact forall_single Nat.one_pos
  | lastShare _ _ => exact forall_single trivial
  | aggregateEntry batchIdx entry _ _ => exact forall_single ⟨placed.1, placed.2.1⟩
  | fallBack batchIdx _ => exact forall_single placed.2
  | _ => exact forall_single placed

theorem Counted.step (counted : verifier.Counted state (job ::ₘ others))
    (nonempty : verifier.vvecs ≠ []) (does : verifier.Does state job after added) :
    verifier.Counted after (added + others) := by
  have placed := counted.placed job (Multiset.mem_cons_self job others)
  have entries := counted.entries
  have aggs := counted.aggs
  have shares := counted.shares
  have calls := counted.calls
  simp only [totalWeight_cons] at entries aggs shares calls
  refine ⟨?_, ?_, ?_, ?_, ?_⟩
  · intro next member
    rcases Multiset.mem_add.mp member with new | old
    · exact does.placed nonempty placed next new
    · exact counted.placed next (Multiset.mem_cons_of_mem old)
  · intro batchIdx inside aggregated
    have before := entries batchIdx inside aggregated
    have moved := does.entries batchIdx
    rw [totalWeight_add]
    omega
  · intro batchIdx inside aggregated
    have before := aggs batchIdx inside aggregated
    have bounded := entries batchIdx inside aggregated
    have moved := does.aggs batchIdx (by omega)
    rw [totalWeight_add]
    omega
  · have moved := does.shares placed (by
      rintro batchIdx rfl
      have before := aggs batchIdx placed.2 placed.1
      have most := @complete_le _ _ verifier (state.batchStates batchIdx).doneCount
      rw [aggWeight, if_pos rfl] at before
      omega)
    rw [totalWeight_add]
    omega
  · have moved := does.calls placed (by omega)
    rw [totalWeight_add]
    omega

end ContributionVerifier
end StakeCubeCoin.Bls
