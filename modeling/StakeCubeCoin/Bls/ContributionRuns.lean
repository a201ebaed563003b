import Mathlib.Algebra.Order.BigOperators.Group.Finset
import StakeCubeCoin.Bls.ContributionCounts

namespace StakeCubeCoin.Bls

open Library List VerifierJob BatchState Function VerifierState Nat WorkerPool

/-!
# Every schedule of a verification

What the threads write depends only on the vectors and the shares, and each thing is written by
the time somebody reads it.  So every schedule hands the same result to the callback, unless an
assertion fails or a vector without entries is waited for.
-/

namespace ContributionVerifier

variable {Scalar Point : Type} {verifier : ContributionVerifier Scalar Point}

/-- Who writes an entry of the vector of a batch. -/
def WritesEntry (batchIdx entry : Nat) (job : VerifierJob) : Prop :=
  job = .asyncAggregate batchIdx \/ job = .pushOrDoWork (.aggregateEntry batchIdx entry) \/
    job = .aggregateEntry batchIdx entry

/-- Who writes the aggregated share of a batch. -/
def WritesShare (batchIdx : Nat) (job : VerifierJob) : Prop :=
  job = .asyncAggregate batchIdx \/ job = .pushOrDoWork (.aggregateSkShare batchIdx) \/
    job = .aggregateSkShare batchIdx

/-- Who writes what a batch says of a share. -/
def WritesResult (batchIdx index : Nat) (job : VerifierJob) : Prop :=
  job = .handleAggDone batchIdx \/ job = .pushOrDoWork (.aggregatedVerify batchIdx) \/
    job = .aggregatedVerify batchIdx \/ job = .asyncVerifyBatchOneByOne batchIdx \/
    job = .pushOrDoWork (.verifyOne batchIdx index) \/ job = .verifyOne batchIdx index

variable {batchIdx : Nat}

theorem entryWeight_of_writesEntry {job : VerifierJob} {entry : Nat}
    (listed : entry < verifier.vecSize) (writes : WritesEntry batchIdx entry job) :
    0 < verifier.entryWeight batchIdx job := by
  rcases writes with rfl | rfl | rfl
  · rw [entryWeight, if_pos rfl]
    omega
  · rw [entryWeight, entryWeight, if_pos rfl]
    exact one_pos
  · rw [entryWeight, if_pos rfl]
    exact one_pos

theorem aggWeight_of_writesShare {job : VerifierJob} (writes : WritesShare batchIdx job) :
    0 < aggWeight batchIdx job := by
  rcases writes with rfl | rfl | rfl
  · rw [aggWeight, if_pos rfl]
    exact one_pos
  · rw [aggWeight, aggWeight, if_pos rfl]
    exact one_pos
  · rw [aggWeight, if_pos rfl]
    exact one_pos

variable {jobs : Multiset VerifierJob} {state : VerifierState Scalar Point}

section

variable (counted : verifier.Counted state jobs) (inside : batchIdx < verifier.batchCount)
  (aggregated : verifier.aggregated = true)

include counted inside aggregated

theorem Counted.delivered_eq_nil (nonempty : verifier.vvecs ≠ [])
    (waits : (state.batchStates batchIdx).aggDone < 2) : state.delivered = [] := by
  have positive := count_pos nonempty inside
  have part : verifier.count batchIdx <= verifier.waiting state := by
    have here : (if verifier.aggregated /\ (state.batchStates batchIdx).aggDone < 2 then
      verifier.count batchIdx else 0) = verifier.count batchIdx := if_pos ⟨aggregated, waits⟩
    rw [<- here]
    exact Finset.single_le_sum (f := fun batchIdx =>
      if verifier.aggregated /\ (state.batchStates batchIdx).aggDone < 2 then verifier.count batchIdx else 0)
      (fun _ _ => zero_le _) (Finset.mem_range.mpr inside)
  have sums := counted.shares
  have calls := counted.calls
  rw [allVerified, if_neg (by omega)] at calls
  exact length_eq_zero_iff.mp (by omega)

theorem Counted.waits_for_entry {entry : Nat}
    (listed : entry < verifier.vecSize) (pending : PendingFor (WritesEntry batchIdx entry) jobs) :
    (state.batchStates batchIdx).aggDone < 2 := by
  rcases pending with ⟨_, member, writes⟩
  have weight := entryWeight_of_writesEntry listed writes
  have part := weight_le_totalWeight (verifier.entryWeight batchIdx) member
  have entries := counted.entries batchIdx inside aggregated
  have aggs := counted.aggs batchIdx inside aggregated
  rw [complete, if_neg (by omega)] at aggs
  omega

theorem Counted.waits_for_share (pending : PendingFor (WritesShare batchIdx) jobs) :
    (state.batchStates batchIdx).aggDone < 2 := by
  rcases pending with ⟨_, member, writes⟩
  have weight := aggWeight_of_writesShare writes
  have part := weight_le_totalWeight (aggWeight batchIdx) member
  have aggs := counted.aggs batchIdx inside aggregated
  have most := @complete_le _ _ verifier (state.batchStates batchIdx).doneCount
  omega

end

variable (verifier) in
def started : WorkerPool (VerifierState Scalar Point) VerifierJob :=
  .ofThreads {} [verifier.startJobs]

variable (verifier) in
theorem pending_started :
    verifier.started.pending = (verifier.startJobs : Multiset VerifierJob) := by
  rw [started, pending_ofThreads]
  simp

theorem sum_count : ∑ batchIdx ∈ Finset.range verifier.batchCount,
    verifier.count batchIdx = verifier.vvecs.length := by
  have parts : ∀ batches ≤ verifier.batchCount,
    ∑ batchIdx ∈ Finset.range batches, verifier.count batchIdx =
      min (batches * verifier.batchSize) verifier.vvecs.length := by
    intro batches
    induction batches with
    | zero => intro _; simp
    | succ batches _ =>
      intro inside
      rw [Finset.sum_range_succ, count, start, succ_mul]
      omega
  rw [parts _ le_rfl]
  cases aggregated : verifier.aggregated with
  | true =>
    simp only [batchCount, batchSize, aggregated, if_true]
    omega
  | false => simp [batchCount, batchSize, aggregated]

theorem sum_indicator {batches : Nat} (inside : batchIdx < batches) (weight : Nat) :
    ((List.range batches).map fun other => if batchIdx = other then weight else 0).sum = weight := by
  change (∑ other ∈ Finset.range batches, if batchIdx = other then weight else 0) = weight
  rw [Finset.sum_ite_eq, if_pos (Finset.mem_range.mpr inside)]

theorem counted_started (nonempty : verifier.vvecs ≠ []) :
    verifier.Counted {} verifier.startJobs := by
  have some_ : verifier.vvecs.length ≠ 0 := fun none => nonempty (length_eq_zero_iff.mp none)
  unfold startJobs
  cases aggregated : verifier.aggregated with
  | true =>
    refine ⟨?_, ?_, ?_, ?_, ?_⟩
    · intro job member
      rcases mem_map.mp member with ⟨batchIdx, listed, rfl⟩
      exact ⟨aggregated, mem_range.mp listed⟩
    · intro batchIdx inside _
      rw [if_pos rfl, totalWeight_coe, map_map]
      exact sum_indicator inside verifier.vecSize
    · intro batchIdx inside _
      rw [if_pos rfl, totalWeight_coe, map_map]
      have none : verifier.complete 0 = 0 := if_neg (by omega)
      rw [none]
      exact sum_indicator inside 1
    · have all : verifier.waiting ({} : VerifierState Scalar Point) = verifier.vvecs.length := by
        rw [<- @sum_count _ _ verifier]
        exact Finset.sum_congr rfl fun batchIdx _ => if_pos ⟨aggregated, Nat.zero_lt_two⟩
      rw [if_pos rfl, totalWeight_coe, all]
      simp [comp_def, verifyWeight]
    · rw [if_pos rfl, totalWeight_coe, allVerified, if_neg some_.symm]
      simp [comp_def, finishWeight]
  | false =>
    have whole : verifier.count 0 = verifier.vvecs.length := by
      simp [count, start, batchSize, aggregated]
    have idle : verifier.waiting ({} : VerifierState Scalar Point) = 0 :=
      Finset.sum_eq_zero fun batchIdx _ => if_neg (by simp [aggregated])
    refine ⟨?_, ?_, ?_, ?_, ?_⟩
    · intro job member
      rw [mem_singleton.mp member]
      simp [Placed, batchCount, aggregated]
    · intro batchIdx inside contrary
      rw [aggregated] at contrary
      cases contrary
    · intro batchIdx inside contrary
      rw [aggregated] at contrary
      cases contrary
    · rw [idle]
      simp [verifyWeight, whole]
    · rw [allVerified, if_neg some_.symm]
      simp [finishWeight]

variable [CommRing Scalar] [AddCommGroup Point] [Module Scalar Point] [DecidableEq Point]

variable (verifier)

def aggregatedVvec (batchIdx : Nat) : List (PublicKey Point) :=
  (List.range verifier.vecSize).map fun entry => (verifier.aggregatedKey batchIdx entry).getD none

/-- The aggregates of a batch are no use. -/
def broken (batchIdx : Nat) : Bool :=
  (verifier.aggregatedVvec batchIdx).isEmpty ||
    ((verifier.aggregatedShare batchIdx).getD none).isNone

/-- A share verified on its own. -/
def oneResult (batchIdx index : Nat) : Bool :=
  verify verifier.group verifier.forId (verifier.vvecs.getD (verifier.start batchIdx + index) [])
    (verifier.skShares.getD (verifier.start batchIdx + index) none)

/-- What a batch says of a share in the end. -/
def batchResult (batchIdx index : Nat) : Bool :=
  if verifier.aggregated then
    !verifier.broken batchIdx &&
      (verify verifier.group verifier.forId (verifier.aggregatedVvec batchIdx)
        ((verifier.aggregatedShare batchIdx).getD none) ||
        verifier.oneResult batchIdx index)
  else verifier.oneResult batchIdx index

def finalResult : List Bool :=
  (List.range verifier.vvecs.length).map fun index =>
    verifier.batchResult (index / verifier.batchSize) (index % verifier.batchSize)

/-- Jobs are not done before what they wait for. -/
def Timely (state : VerifierState Scalar Point) : VerifierJob -> Prop
  | .pushOrDoWork job => Timely state job
  | .handleAggVvecDone batchIdx => (state.batchStates batchIdx).doneCount = verifier.vecSize
  | .handleAggDone batchIdx => (state.batchStates batchIdx).aggDone = 2
  | .aggregatedVerify batchIdx => (state.batchStates batchIdx).aggDone = 2 /\
    verifier.broken batchIdx = false
  | .asyncVerifyBatchOneByOne batchIdx =>
    ∀ index, verifier.batchResult batchIdx index = verifier.oneResult batchIdx index
  | .verifyOne batchIdx _ =>
    ∀ index, verifier.batchResult batchIdx index = verifier.oneResult batchIdx index
  | .finish => state.verifyDoneCount = verifier.vvecs.length
  | _ => True

/-- What is written is right, or somebody will write it.  Together with the counts this gives what a
stage finds when it begins, as nobody is left to write by then. -/
structure Valued (state : VerifierState Scalar Point) (jobs : Multiset VerifierJob) : Prop where
  timely : ∀ job ∈ jobs, verifier.Timely state job
  entries : ∀ batchIdx entry, batchIdx < verifier.batchCount -> verifier.aggregated = true ->
    entry < verifier.vecSize -> PendingFor (WritesEntry batchIdx entry) jobs \/
      verifier.aggregatedKey batchIdx entry = some ((state.batchStates batchIdx).result entry)
  vvecs : ∀ batchIdx < verifier.batchCount, verifier.aggregated = true -> 0 < verifier.vecSize ->
    PendingFor (fun job => job = .handleAggVvecDone batchIdx) jobs \/
      ((state.batchStates batchIdx).doneCount = verifier.vecSize ->
        (state.batchStates batchIdx).vvec = some (verifier.aggregatedVvec batchIdx))
  shares : ∀ batchIdx < verifier.batchCount, verifier.aggregated = true ->
    PendingFor (WritesShare batchIdx) jobs \/
      verifier.aggregatedShare batchIdx = some (state.batchStates batchIdx).skShare
  results : ∀ batchIdx index, batchIdx < verifier.batchCount -> index < verifier.count batchIdx ->
    PendingFor (WritesResult batchIdx index) jobs \/
      (verifier.aggregated = true /\ (state.batchStates batchIdx).aggDone ≠ 2 \/
        (state.batchStates batchIdx).verifyResults index = verifier.batchResult batchIdx index)
  delivered : ∀ result ∈ state.delivered, result = verifier.finalResult

variable {verifier}

section

variable {state after : VerifierState Scalar Point} {job : VerifierJob}
  {added others : Multiset VerifierJob}

variable {batchIdx : Nat}

section

variable (does : verifier.Does state job after added)

include does

theorem Does.writesEntry {entry : Nat} (inside : entry < verifier.vecSize)
    (either : WritesEntry batchIdx entry job \/
      verifier.aggregatedKey batchIdx entry = some ((state.batchStates batchIdx).result entry)) :
    PendingFor (WritesEntry batchIdx entry) added \/
      verifier.aggregatedKey batchIdx entry = some ((after.batchStates batchIdx).result entry) := by
  cases does
  all_goals
    simp only [WritesEntry, asyncAggregate.injEq, pushOrDoWork.injEq,
      aggregateEntry.injEq, reduceCtorEq, or_self, or_false, false_or] at either
  case asyncAggregate other =>
    refine either.imp_left fun same => ?_
    subst same
    refine ⟨.pushOrDoWork (.aggregateEntry other entry), ?_, .inr (.inl rfl)⟩
    exact mem_append.mpr (.inl (mem_map.mpr ⟨entry, mem_range.mpr inside, rfl⟩))
  case pushOrDoWork job =>
    exact either.imp_left fun same => ⟨job, Multiset.mem_singleton_self job, .inr (.inr same)⟩
  case aggregateEntry other written _ found =>
    right
    rw [batchStates_updateBatch]
    split
    · next same =>
      subst same
      by_cases here : entry = written
      · subst here
        simp only [update_self]
        exact found
      · simp only [update_of_ne here]
        exact either.resolve_left fun equal => here equal.2.symm
    · next different => exact either.resolve_left fun equal => different equal.1.symm
  all_goals
    simpa [apply_ite result] using .inr either

theorem Does.writesVvec (written : job = .handleAggVvecDone batchIdx -> ∀ entry < verifier.vecSize,
      verifier.aggregatedKey batchIdx entry = some ((state.batchStates batchIdx).result entry))
    (either : job = .handleAggVvecDone batchIdx \/
      ((state.batchStates batchIdx).doneCount = verifier.vecSize ->
        (state.batchStates batchIdx).vvec = some (verifier.aggregatedVvec batchIdx))) :
    PendingFor (fun job => job = .handleAggVvecDone batchIdx) added \/
      ((after.batchStates batchIdx).doneCount = verifier.vecSize ->
        (after.batchStates batchIdx).vvec = some (verifier.aggregatedVvec batchIdx)) := by
  cases does with
  | handleAggVvecDone other =>
    right
    rw [batchStates_updateBatch]
    split
    · next same =>
      subst same
      refine fun _ => congrArg some (map_congr_left fun entry listed => ?_)
      rw [written rfl entry (mem_range.mp listed)]
      rfl
    · next different =>
      simp only [handleAggVvecDone.injEq] at either
      exact either.resolve_left fun equal => different equal.symm
  | checkDone other more =>
    simp only [reduceCtorEq, false_or] at either
    right
    rw [batchStates_updateBatch]
    split
    · next same => exact fun counted => absurd counted (same ▸ more)
    · exact either
  | lastEntry other _ =>
    simp only [reduceCtorEq, false_or] at either
    rw [batchStates_updateBatch]
    split
    · next same => exact .inl ⟨_, Multiset.mem_singleton_self _, by rw [same]⟩
    · exact .inr either
  | pushOrDoWork job =>
    simp only [reduceCtorEq, false_or] at either
    exact .inr either
  | _ =>
    right
    simpa [apply_ite doneCount, apply_ite vvec] using either

/-- The aggregated share is written, or handed on. -/
theorem Does.writesShare (either : WritesShare batchIdx job \/
      verifier.aggregatedShare batchIdx = some (state.batchStates batchIdx).skShare) :
    PendingFor (WritesShare batchIdx) added \/
      verifier.aggregatedShare batchIdx = some (after.batchStates batchIdx).skShare := by
  cases does
  all_goals
    simp only [WritesShare, asyncAggregate.injEq, pushOrDoWork.injEq,
      aggregateSkShare.injEq, reduceCtorEq, or_self, or_false, false_or] at either
  case asyncAggregate other =>
    refine either.imp_left fun same => ?_
    subst same
    refine ⟨.pushOrDoWork (.aggregateSkShare other), ?_, .inr (.inl rfl)⟩
    exact mem_append.mpr (.inr (mem_singleton_self _))
  case pushOrDoWork job =>
    exact either.imp_left fun same => ⟨job, Multiset.mem_singleton_self job, .inr (.inr same)⟩
  case aggregateSkShare other _ found =>
    right
    rw [batchStates_updateBatch]
    split
    · next same => exact same ▸ found
    · next different => exact either.resolve_left fun equal => different equal.symm
  all_goals
    simpa [apply_ite skShare] using .inr either

variable (verifier) in
/-- The aggregates of a batch are there. -/
structure AggregatesRight (state : VerifierState Scalar Point) (batchIdx : Nat) : Prop where
  aggregated : verifier.aggregated = true
  vvec : (state.batchStates batchIdx).vvec = some (verifier.aggregatedVvec batchIdx)
  skShare : (state.batchStates batchIdx).skShare = (verifier.aggregatedShare batchIdx).getD none

section

variable (awaited : verifier.Timely state job)
  (found : ∀ batchIdx, job = .handleAggDone batchIdx \/ job = .aggregatedVerify batchIdx ->
    verifier.AggregatesRight state batchIdx)

include awaited found

theorem Does.writesResult {index : Nat} (inside : index < verifier.count batchIdx)
    (either : WritesResult batchIdx index job \/
      (verifier.aggregated = true /\ (state.batchStates batchIdx).aggDone ≠ 2 \/
        (state.batchStates batchIdx).verifyResults index = verifier.batchResult batchIdx index)) :
    PendingFor (WritesResult batchIdx index) added \/
      (verifier.aggregated = true /\ (after.batchStates batchIdx).aggDone ≠ 2 \/
        (after.batchStates batchIdx).verifyResults index = verifier.batchResult batchIdx index) := by
  cases does
  all_goals
    simp only [WritesResult, pushOrDoWork.injEq, handleAggDone.injEq, aggregatedVerify.injEq,
      asyncVerifyBatchOneByOne.injEq, verifyOne.injEq, reduceCtorEq, or_self, or_false, false_or] at either
  case pushOrDoWork job =>
    refine either.imp_left fun concerned => ⟨job, Multiset.mem_singleton_self job, ?_⟩
    rcases concerned with same | same
    · exact .inr (.inr (.inl same))
    · exact .inr (.inr (.inr (.inr (.inr same))))
  case incAggDone other more =>
    right
    rw [batchStates_updateBatch]
    split
    · next same => exact either.imp_left fun waits => ⟨waits.1, same ▸ more⟩
    · exact either
  case lastAgg other last =>
    rw [batchStates_updateBatch]
    split
    · next same => exact .inl ⟨_, Multiset.mem_singleton_self _, .inl (by rw [same])⟩
    · exact .inr either
  case unusable other useless =>
    right
    rw [batchStates_updateBatch]
    split
    · next same =>
      subst same
      have right := found batchIdx (.inl rfl)
      rw [right.vvec, right.skShare] at useless
      have whole : verifier.broken batchIdx = true := useless
      simp [batchResult, right.aggregated, whole]
    · next different => exact either.resolve_left fun equal => different equal.symm
  case handleAggDone other _ =>
    refine either.imp_left fun same => ⟨_, Multiset.mem_singleton_self _, ?_⟩
    exact .inr (.inl (by rw [same]))
  case wholeBatch other verified =>
    right
    rw [batchStates_updateBatch]
    split
    · next same =>
      subst same
      have right := found batchIdx (.inr rfl)
      rw [right.vvec, right.skShare, Option.getD_some] at verified
      simp [batchResult, right.aggregated, awaited.2, verified]
    · next different => exact either.resolve_left fun equal => different equal.symm
  case fallBack other _ =>
    refine either.imp_left fun same => ⟨_, Multiset.mem_singleton_self _, ?_⟩
    exact .inr (.inr (.inr (.inl (by rw [same]))))
  case asyncVerifyBatchOneByOne other =>
    rw [batchStates_updateBatch]
    split
    · next same =>
      subst same
      refine .inl ⟨.pushOrDoWork (.verifyOne batchIdx index), ?_, .inr (.inr (.inr (.inr (.inl rfl))))⟩
      exact mem_map.mpr ⟨index, mem_range.mpr inside, rfl⟩
    · next different => exact .inr (either.resolve_left fun equal => different equal.symm)
  case verifyOne other written =>
    right
    rw [batchStates_updateBatch]
    split
    · next same =>
      subst same
      by_cases here : index = written
      · subst here
        right
        simp only [update_self]
        exact (awaited index).symm
      · simp only [update_of_ne here]
        exact either.resolve_left fun equal => here equal.2.symm
    · next different => exact either.resolve_left fun equal => different equal.1.symm
  case handleVerifyDone | lastShare => exact .inr either
  all_goals
    right
    simpa [apply_ite aggDone, apply_ite verifyResults] using either

/-- Jobs are added when what they wait for is done. -/
theorem Does.timely : ∀ next ∈ added, verifier.Timely after next := by
  cases does with
  | asyncAggregate batchIdx =>
    intro next member
    rcases mem_append.mp member with entries | share
    · rcases mem_map.mp entries with ⟨_, _, rfl⟩
      trivial
    · rw [mem_singleton.mp share]
      trivial
  | asyncVerifyBatchOneByOne batchIdx =>
    intro next member
    rcases mem_map.mp member with ⟨index, _, rfl⟩
    exact awaited
  | checkDone | incAggDone | handleVerifyDone | finish => exact forall_none
  | lastEntry _ last | lastAgg _ last =>
    refine forall_single ?_
    rw [Timely, batchStates_updateBatch, if_pos rfl]
    exact last
  | handleAggDone batchIdx usable =>
    have right := found batchIdx (.inl rfl)
    rw [right.vvec, right.skShare] at usable
    exact forall_single ⟨awaited, usable⟩
  | fallBack batchIdx wrong =>
    have right := found batchIdx (.inr rfl)
    rw [right.vvec, right.skShare, Option.getD_some] at wrong
    refine forall_single fun index => ?_
    simp [batchResult, right.aggregated, awaited.2, wrong]
  | lastShare _ last => exact forall_single last
  | pushOrDoWork job => exact forall_single awaited
  | _ => exact forall_single trivial

end

theorem Does.mono :
    (∀ batchIdx, (state.batchStates batchIdx).doneCount <= (after.batchStates batchIdx).doneCount /\
      (state.batchStates batchIdx).aggDone <= (after.batchStates batchIdx).aggDone) /\
      state.verifyDoneCount <= after.verifyDoneCount := by
  have grows : ∀ (batchIdx other count : Nat),
    count <= if other = batchIdx then count + 1 else count := by
    intro batchIdx other count
    split <;> omega
  cases does with
  | handleVerifyDone | lastShare => exact ⟨fun _ => ⟨le_rfl, le_rfl⟩, le_add_right _ _⟩
  | finish => exact ⟨fun _ => ⟨le_rfl, le_rfl⟩, le_rfl⟩
  | _ =>
    simp [apply_ite doneCount, apply_ite aggDone, grows]

end

variable {jobs : Multiset VerifierJob}

theorem Timely.later {other : VerifierJob} (timely : verifier.Timely state other)
    (placed : verifier.Placed other) (does : verifier.Does state job after added)
    (counted : verifier.Counted after jobs) : verifier.Timely after other := by
  have mono := does.mono
  have stays : ∀ batchIdx, Aggregated verifier batchIdx ->
    (state.batchStates batchIdx).aggDone = 2 -> (after.batchStates batchIdx).aggDone = 2 := by
    intro batchIdx placed two
    have total := counted.aggs batchIdx placed.2 placed.1
    have most := @complete_le _ _ verifier (after.batchStates batchIdx).doneCount
    have grown := (mono.1 batchIdx).2
    omega
  induction other with
  | pushOrDoWork job ih => exact ih timely placed
  | handleAggVvecDone batchIdx =>
    have total := counted.entries batchIdx placed.2 placed.1
    have grown := (mono.1 batchIdx).1
    rw [Timely] at timely ⊢
    omega
  | handleAggDone batchIdx => exact stays batchIdx placed timely
  | aggregatedVerify batchIdx => exact ⟨stays batchIdx placed timely.1, timely.2⟩
  | finish =>
    have total := counted.shares
    rw [Timely] at timely ⊢
    omega
  | asyncVerifyBatchOneByOne | verifyOne => exact timely
  | _ => trivial

/-- When both aggregations are counted, the aggregates are right. -/
theorem Valued.aggregatesRight (valued : verifier.Valued state jobs)
    (counted : verifier.Counted state jobs) (inside : batchIdx < verifier.batchCount)
    (aggregated : verifier.aggregated = true) (done : (state.batchStates batchIdx).aggDone = 2) :
    verifier.AggregatesRight state batchIdx := by
  have total := counted.aggs batchIdx inside aggregated
  have most := @complete_le _ _ verifier (state.batchStates batchIdx).doneCount
  have nothing : totalWeight (aggWeight batchIdx) jobs = 0 := by omega
  have full : (state.batchStates batchIdx).doneCount = verifier.vecSize /\
    0 < verifier.vecSize := by
    by_contra less
    rw [complete, if_neg less] at total
    omega
  refine ⟨aggregated, ?_, ?_⟩
  · refine (valued.vvecs batchIdx inside aggregated full.2).resolve_left ?_ full.1
    refine not_pendingFor_of_totalWeight ?_ nothing
    rintro job rfl
    rw [aggWeight, if_pos rfl]
    exact one_pos
  · have written := (valued.shares batchIdx inside aggregated).resolve_left
      (not_pendingFor_of_totalWeight (fun job => aggWeight_of_writesShare) nothing)
    rw [written]
    rfl

/-- When all shares are counted, the results are right. -/
theorem Valued.collect_right (valued : verifier.Valued state jobs)
    (counted : verifier.Counted state jobs) (nonempty : verifier.vvecs ≠ [])
    (done : state.verifyDoneCount = verifier.vvecs.length) :
    verifier.collect state = verifier.finalResult := by
  have total := counted.shares
  refine map_congr_left fun index listed => ?_
  have placed := @batch_of_index _ _ verifier index (mem_range.mp listed)
  have positive := count_pos nonempty placed.1
  have settled := valued.results _ _ placed.1 placed.2
  generalize index / verifier.batchSize = batchIdx at placed positive settled ⊢
  refine (settled.resolve_left ?_).resolve_left ?_
  · refine @not_pendingFor_of_totalWeight _ _ verifier.verifyWeight _ ?_ (by omega)
    rintro _ (rfl | rfl | rfl | rfl | rfl | rfl)
    · exact positive
    · exact positive
    · exact positive
    · exact positive
    · exact one_pos
    · exact one_pos
  · rintro ⟨aggregated, _⟩
    have none : verifier.waiting state = 0 := by omega
    have here := Finset.sum_eq_zero_iff.mp none batchIdx (Finset.mem_range.mpr placed.1)
    have sums := counted.aggs batchIdx placed.1 aggregated
    have most := @complete_le _ _ verifier (state.batchStates batchIdx).doneCount
    rw [if_pos ⟨aggregated, by omega⟩] at here
    omega

theorem Valued.step (valued : verifier.Valued state (job ::ₘ others))
    (counted : verifier.Counted state (job ::ₘ others)) (nonempty : verifier.vvecs ≠ [])
    (does : verifier.Does state job after added) : verifier.Valued after (added + others) := by
  have member := Multiset.mem_cons_self job others
  have timely := valued.timely job member
  have placed := counted.placed job member
  have next := counted.step nonempty does
  have found : ∀ batchIdx, job = .handleAggDone batchIdx \/ job = .aggregatedVerify batchIdx ->
    verifier.AggregatesRight state batchIdx := by
    rintro batchIdx (rfl | rfl)
    · exact valued.aggregatesRight counted placed.2 placed.1 timely
    · exact valued.aggregatesRight counted placed.2 placed.1 timely.1
  refine ⟨?_, ?_, ?_, ?_, ?_, ?_⟩
  · intro other pending
    rcases Multiset.mem_add.mp pending with new | old
    · exact does.timely timely found other new
    · have before : other ∈ job ::ₘ others := Multiset.mem_cons_of_mem old
      exact (valued.timely other before).later (counted.placed other before) does next
  · intro batchIdx entry inside aggregated listed
    exact pendingFor_or (valued.entries batchIdx entry inside aggregated listed) (does.writesEntry listed)
  · intro batchIdx inside aggregated some_
    refine pendingFor_or (valued.vvecs batchIdx inside aggregated some_) (does.writesVvec ?_)
    rintro rfl entry listed
    refine (valued.entries batchIdx entry inside aggregated listed).resolve_left ?_
    have total := counted.entries batchIdx inside aggregated
    rw [Timely] at timely
    exact @not_pendingFor_of_totalWeight _ _ (verifier.entryWeight batchIdx) _
      (fun job => entryWeight_of_writesEntry listed) (by omega)
  · intro batchIdx inside aggregated
    exact pendingFor_or (valued.shares batchIdx inside aggregated) does.writesShare
  · intro batchIdx index inside listed
    exact pendingFor_or (valued.results batchIdx index inside listed) (does.writesResult timely found listed)
  · intro result delivered
    cases does with
    | finish =>
      rcases mem_append.mp delivered with old | new
      · exact valued.delivered result old
      · rw [mem_singleton.mp new]
        exact valued.collect_right counted nonempty timely
    | _ => exact valued.delivered result delivered

end

variable (verifier)

/-- No assertion fails. -/
def Aggregates : Prop :=
  verifier.aggregated = true -> ∀ batchIdx < verifier.batchCount,
    (∀ entry < verifier.vecSize, verifier.aggregatedKey batchIdx entry ≠ none) /\
      verifier.aggregatedShare batchIdx ≠ none

/-- The process was stopped before anything was delivered, or all is well. -/
def Sound (state : VerifierState Scalar Point) (jobs : Multiset VerifierJob) : Prop :=
  state.assertionFailed = true /\ state.delivered = [] /\ ¬ verifier.Aggregates \/
    state.assertionFailed = false /\ verifier.Counted state jobs /\ verifier.Valued state jobs

variable {verifier}

section

variable {state : VerifierState Scalar Point} {job : VerifierJob}
  {jobs others : Multiset VerifierJob}

omit [Module Scalar Point] [DecidableEq Point] in
/-- When an assertion fails, nothing was delivered. -/
theorem Counted.of_fails (counted : verifier.Counted state (job ::ₘ others))
    (nonempty : verifier.vvecs ≠ []) (fails : verifier.Fails job) :
    state.delivered = [] /\ ¬ verifier.Aggregates := by
  have member := Multiset.mem_cons_self job others
  have placed := counted.placed job member
  cases job with
  | aggregateEntry batchIdx entry =>
    refine ⟨?_, fun aggregates => ?_⟩
    · exact counted.delivered_eq_nil placed.2.1 placed.1 nonempty
        (counted.waits_for_entry placed.2.1 placed.1 placed.2.2 ⟨_, member, .inr (.inr rfl)⟩)
    · exact (aggregates placed.1 batchIdx placed.2.1).1 entry placed.2.2 fails
  | aggregateSkShare batchIdx =>
    refine ⟨?_, fun aggregates => ?_⟩
    · exact counted.delivered_eq_nil placed.2 placed.1 nonempty
        (counted.waits_for_share placed.2 placed.1 ⟨_, member, .inr (.inr rfl)⟩)
    · exact (aggregates placed.1 batchIdx placed.2).2 fails
  | _ => exact absurd fails id

theorem valued_started : verifier.Valued {} verifier.startJobs := by
  unfold startJobs
  cases aggregated : verifier.aggregated with
  | true =>
    have starts : ∀ {batchIdx}, batchIdx < verifier.batchCount ->
      asyncAggregate batchIdx ∈
        (((List.range verifier.batchCount).map .asyncAggregate : List VerifierJob) : Multiset VerifierJob) :=
      fun inside => mem_map.mpr ⟨_, mem_range.mpr inside, rfl⟩
    refine ⟨?_, ?_, ?_, ?_, ?_, ?_⟩
    · intro job member
      rcases mem_map.mp member with ⟨batchIdx, _, rfl⟩
      trivial
    · exact fun batchIdx entry inside _ _ => .inl ⟨_, starts inside, .inl rfl⟩
    · exact fun batchIdx inside _ some_ => .inr fun none => absurd none (Nat.ne_of_lt some_)
    · exact fun batchIdx inside _ => .inl ⟨_, starts inside, .inl rfl⟩
    · exact fun batchIdx index inside _ => .inr (.inl ⟨aggregated, zero_ne_add_one 1⟩)
    · exact nofun
  | false =>
    refine ⟨?_, ?_, ?_, ?_, ?_, ?_⟩
    · intro job member
      rw [mem_singleton.mp member]
      intro index
      simp [batchResult, aggregated]
    · exact fun batchIdx entry inside contrary => absurd contrary (by simp [aggregated])
    · exact fun batchIdx inside contrary => absurd contrary (by simp [aggregated])
    · exact fun batchIdx inside contrary => absurd contrary (by simp [aggregated])
    · intro batchIdx index inside _
      have first : batchIdx = 0 := by
        rw [batchCount, aggregated, if_neg (by decide)] at inside
        omega
      subst first
      exact .inl ⟨_, Multiset.mem_singleton_self _, .inr (.inr (.inr (.inl rfl)))⟩
    · exact nofun

end

variable (verifier)

/-- What a job can lead to. -/
def jobSize : VerifierJob -> Nat
  | .asyncAggregate batchIdx =>
    1 + verifier.vecSize * (4 * verifier.count batchIdx + 10 + 1) + (4 * verifier.count batchIdx + 8 + 1)
  | .pushOrDoWork job => jobSize job + 1
  | .aggregateEntry batchIdx _ => 4 * verifier.count batchIdx + 10
  | .checkDone batchIdx => 4 * verifier.count batchIdx + 9
  | .handleAggVvecDone batchIdx => 4 * verifier.count batchIdx + 8
  | .aggregateSkShare batchIdx => 4 * verifier.count batchIdx + 8
  | .incAggDone batchIdx => 4 * verifier.count batchIdx + 7
  | .handleAggDone batchIdx => 4 * verifier.count batchIdx + 6
  | .aggregatedVerify batchIdx => 4 * verifier.count batchIdx + 4
  | .asyncVerifyBatchOneByOne batchIdx => 4 * verifier.count batchIdx + 1
  | .verifyOne _ _ => 3
  | .handleVerifyDone _ => 2
  | .finish => 1

theorem jobSize_work (state : VerifierState Scalar Point) (job : VerifierJob) :
    totalWeight verifier.jobSize (verifier.work state job).added < verifier.jobSize job := by
  rcases verifier.work_cases state job with does | ⟨fails, _, none⟩
  · generalize (verifier.work state job).shared = after at does
    generalize (verifier.work state job).added = added at does
    cases does with
    | asyncAggregate batchIdx =>
      simp only [totalWeight_coe, map_append, map_map, sum_append_nat, comp_def, jobSize,
        map_const', length_range, sum_replicate, map_cons, map_nil, sum_cons,
        sum_nil, smul_eq_mul]
      omega
    | asyncVerifyBatchOneByOne batchIdx =>
      simp only [totalWeight_coe, map_map, comp_def, jobSize, map_const', length_range,
        sum_replicate, smul_eq_mul]
      omega
    | _ => simp [jobSize]
  · rw [none]
    cases job with
    | aggregateEntry batchIdx _ => exact succ_pos _
    | aggregateSkShare batchIdx => exact succ_pos _
    | _ => exact absurd fails id

def runState (schedule : Nat -> Nat) (steps : Nat) : VerifierState Scalar Point :=
  (run verifier.work VerifierState.assertionFailed verifier.started schedule steps).shared

variable {verifier}

theorem sound_run (nonempty : verifier.vvecs ≠ []) (schedule : Nat -> Nat) (steps : Nat) :
    verifier.Sound (verifier.runState schedule steps)
      (run verifier.work assertionFailed verifier.started schedule steps).pending := by
  refine @WorkerPool.invariant_run _ _ verifier.work assertionFailed verifier.Sound ?_ _ ?_
    schedule steps
  · intro state job others going sound
    rcases sound with ⟨failed, _⟩ | ⟨_, counted, valued⟩
    · rw [going] at failed
      cases failed
    rcases verifier.work_cases state job with does | ⟨fails, stopped, _⟩
    · exact .inr ⟨does.assertionFailed.trans going, counted.step nonempty does,
        valued.step counted nonempty does⟩
    · rw [stopped]
      exact .inl ⟨rfl, counted.of_fails nonempty fails⟩
  · rw [pending_started]
    exact .inr ⟨rfl, counted_started nonempty, valued_started⟩

/-- Every schedule delivers one result, and always the same. -/
theorem delivers (nonempty : verifier.vvecs ≠ []) (aggregates : verifier.Aggregates)
    (entries : verifier.aggregated = true -> 0 < verifier.vecSize) (schedule : Nat -> Nat) :
    ∃ enough, ∀ steps, enough <= steps ->
      (verifier.runState schedule steps).delivered = [verifier.finalResult] := by
  refine ⟨totalWeight verifier.jobSize verifier.started.pending, fun steps long => ?_⟩
  have rests := @WorkerPool.rests_of_size _ _ verifier.work assertionFailed verifier.jobSize
    verifier.jobSize_work verifier.started schedule steps long
  rcases sound_run nonempty schedule steps with ⟨_, _, contrary⟩ | ⟨going, counted, valued⟩
  · exact absurd aggregates contrary
  have idle := rests.resolve_left (by rw [runState] at going; rw [going]; decide)
  rw [idle] at counted valued
  have done : (verifier.runState schedule steps).verifyDoneCount = verifier.vvecs.length := by
    have none : verifier.waiting (verifier.runState schedule steps) = 0 := by
      refine Finset.sum_eq_zero fun batchIdx listed => if_neg ?_
      rintro ⟨aggregated, _⟩
      have inside := Finset.mem_range.mp listed
      have full := counted.entries batchIdx inside aggregated
      have both := counted.aggs batchIdx inside aggregated
      rw [totalWeight_zero, zero_add] at full both
      rw [complete, if_pos ⟨full, entries aggregated⟩] at both
      omega
    have sums := counted.shares
    rw [totalWeight_zero] at sums
    omega
  have calls := counted.calls
  rw [totalWeight_zero, allVerified, if_pos done] at calls
  rcases length_eq_one_iff.mp (by omega : (verifier.runState schedule steps).delivered.length = 1) with
    ⟨result, single⟩
  have right := valued.delivered result (by rw [single]; exact mem_singleton_self result)
  rw [single, right]

/-- If an assertion fails or the vectors are empty, no schedule delivers anything. -/
theorem silent (nonempty : verifier.vvecs ≠ [])
    (fails : ¬ (verifier.Aggregates /\ (verifier.aggregated = true -> 0 < verifier.vecSize)))
    (schedule : Nat -> Nat) (steps : Nat) : (verifier.runState schedule steps).delivered = [] := by
  rcases sound_run nonempty schedule steps with ⟨_, nothing, _⟩ | ⟨_, counted, valued⟩
  · exact nothing
  by_contra delivered
  have finished : ∀ batchIdx < verifier.batchCount, verifier.aggregated = true ->
    ¬ ((verifier.runState schedule steps).batchStates batchIdx).aggDone < 2 :=
    fun batchIdx inside aggregated waits =>
      delivered (counted.delivered_eq_nil inside aggregated nonempty waits)
  refine fails ⟨fun aggregated batchIdx inside => ⟨fun entry listed => ?_, ?_⟩,
    fun aggregated => ?_⟩
  · rcases valued.entries batchIdx entry inside aggregated listed with pending | right
    · exact absurd (counted.waits_for_entry inside aggregated listed pending)
        (finished batchIdx inside aggregated)
    · rw [right]
      exact Option.some_ne_none _
  · rcases valued.shares batchIdx inside aggregated with pending | right
    · exact absurd (counted.waits_for_share inside aggregated pending) (finished batchIdx inside aggregated)
    · rw [right]
      exact Option.some_ne_none _
  · by_contra none
    have some_ : 0 < verifier.vvecs.length := length_pos_iff.mpr nonempty
    have first : 0 < verifier.batchCount := by
      rw [batchCount, batchSize, aggregated, if_pos rfl, if_pos rfl]
      omega
    have both := counted.aggs 0 first aggregated
    rw [complete, if_neg (fun full => none full.2)] at both
    exact finished 0 first aggregated (by omega)

theorem silent_of_empty (empty : verifier.vvecs = []) (schedule : Nat -> Nat) (steps : Nat) :
    (verifier.runState schedule steps).delivered = [] := by
  have kept := @WorkerPool.invariant_run _ _ verifier.work assertionFailed
    (fun state jobs => state.delivered = [] /\
      ∀ job ∈ jobs, job = .asyncVerifyBatchOneByOne 0) ?_ verifier.started ?_ schedule steps
  · exact kept.1
  · rintro state job others _ ⟨nothing, only⟩
    rw [only job (Multiset.mem_cons_self job others)]
    have idle : (verifier.work state (.asyncVerifyBatchOneByOne 0)).added = 0 := by
      simp [work, Effect.added, count, empty]
    rw [idle, zero_add]
    exact ⟨nothing, fun next member => only next (Multiset.mem_cons_of_mem member)⟩
  · rw [pending_started]
    refine ⟨rfl, fun job member => ?_⟩
    unfold startJobs at member
    cases aggregated : verifier.aggregated with
    | true => simp [aggregated, batchCount, batchSize, empty] at member
    | false => simpa [aggregated] using member

end ContributionVerifier
end StakeCubeCoin.Bls
