import Mathlib.Algebra.Module.BigOperators
import Mathlib.Data.List.GetD
import Mathlib.Data.List.ReduceOption
import Mathlib.Data.ZMod.Basic
import StakeCubeCoin.Bls.ContributionRuns

namespace StakeCubeCoin.Bls

open Library List

/-!
# What a verification says of a share

A share matches a vector if the polynomial of the vector has the public key of the share as its
value.  The sum of the shares of a batch matches the sum of the vectors if every share matches,
but also if what is wrong with some of them cancels.
-/

section

variable {Scalar Point : Type} [CommRing Scalar] [AddCommGroup Point] [Module Scalar Point]

def polynomialValue (x : Scalar) (points : List Point) : Point :=
  ∑ power ∈ Finset.range points.length, x ^ power • points.getD power 0

/-- The loop over the coefficients computes the value. -/
theorem evaluate_eq (x : Scalar) (points : List Point) :
    evaluate x points = polynomialValue x points := by
  have cons : ∀ (value : Point) (rest : List Point),
    polynomialValue x (value :: rest) = x • polynomialValue x rest + value := by
    intro value rest
    unfold polynomialValue
    rw [length_cons, Finset.sum_range_succ', Finset.smul_sum]
    simp only [getD_cons_succ, getD_cons_zero, pow_zero, one_smul, pow_succ', mul_smul]
  induction points with
  | nil => rfl
  | cons value rest ih =>
    rw [cons, <- ih]
    cases rest with
    | nil =>
      rw [evaluate, evaluate, smul_zero, zero_add]
    | cons _ _ => rfl

/-- The value of a sum of polynomials, coefficient by coefficient. -/
theorem polynomialValue_sum (x : Scalar) {size : Nat} {vectors : List (List Point)}
    (sameSize : ∀ points ∈ vectors, points.length = size) :
    polynomialValue x ((range size).map fun entry => (vectors.map fun points => points.getD entry 0).sum) =
      (vectors.map (polynomialValue x)).sum := by
  induction vectors with
  | nil =>
    refine Finset.sum_eq_zero fun power inside => ?_
    have listed : power < size := by simpa using Finset.mem_range.mp inside
    simp [listed]
  | cons points _ ih =>
    rw [map_cons, sum_cons, <- ih (forall_mem_cons.mp sameSize).2]
    have length := sameSize points (.head _)
    simp only [polynomialValue, length_map, length_range, length, <- Finset.sum_add_distrib]
    refine Finset.sum_congr rfl fun power inside => ?_
    have listed := Finset.mem_range.mp inside
    simp [listed, smul_add]

end

section

variable {Value : Type} [AddCommMonoid Value]

theorem syncAggregate_cons (first : Option Value) (rest : List (Option Value)) :
    syncAggregate (first :: rest) = rest.foldlM aggregateInsecure first :=
  rfl

theorem syncAggregate_map_some {values : List Value} (nonempty : values ≠ []) :
    syncAggregate (values.map some) = some (some values.sum) := by
  cases values with
  | nil => exact absurd rfl nonempty
  | cons first rest =>
    rw [map_cons, syncAggregate_cons, sum_cons]
    clear nonempty
    induction rest generalizing first with
    | nil => rw [sum_nil, add_zero]; rfl
    | cons value rest ih =>
      rw [map_cons, sum_cons, <- add_assoc]
      exact ih (first + value)

/-- The assertion fails if there are several keys and one is not valid. -/
theorem syncAggregate_eq_none {first second : Option Value} {rest : List (Option Value)}
    (invalid : none ∈ first :: second :: rest) :
    syncAggregate (first :: second :: rest) = none := by
  rw [syncAggregate_cons]
  induction rest generalizing first second with
  | nil =>
    cases first with
    | none => rfl
    | some sum =>
      cases second with
      | none => rfl
      | some value => simp at invalid
  | cons value rest ih =>
    cases first with
    | none => rfl
    | some sum =>
      cases second with
      | none => rfl
      | some other =>
        refine @ih (some (sum + other)) value ?_
        simpa using invalid

end

theorem mapM_map_some {Value : Type} (values : List Value) :
    ((values.map some).mapM fun key => key) = some values := by
  induction values with
  | nil => rfl
  | cons _ _ ih =>
    rw [map_cons, mapM_cons, ih]
    rfl

theorem eq_map_some_of_mapM {Value : Type} {keys : List (Option Value)} {values : List Value}
    (all : (keys.mapM fun key => key) = some values) : keys = values.map some := by
  induction keys generalizing values with
  | nil =>
    injection all with all
    rw [<- all]
    rfl
  | cons key rest ih =>
    rw [mapM_cons] at all
    cases key with
    | none => cases all
    | some _ =>
      cases later : (rest.mapM fun key => key) with
      | none =>
        rw [later] at all
        cases all
      | some _ =>
        rw [later] at all
        injection all with all
        rw [<- all, map_cons, ih later]

section

variable {Scalar Point : Type} [CommRing Scalar] [AddCommGroup Point] [Module Scalar Point]
  [DecidableEq Point]

/-- The public key of the share is the value of the polynomial. -/
def shareMatches (group : KeyGroup Point) (forId : Option Scalar) (vvec : List (PublicKey Point))
    (skShare : SecretKey Scalar) : Bool :=
  match forId, vvec.mapM fun key => key, skShare with
  | some x, some points, some number => decide (polynomialValue x points = number • group.generator)
  | _, _, _ => false

theorem verify_map_some (group : KeyGroup Point) (x : Scalar) (points : List Point)
    (skShare : SecretKey Scalar) :
    verify group (some x) (points.map some) skShare =
      (decide (2 <= points.length) && shareMatches group (some x) (points.map some) skShare) := by
  unfold verify publicKeyShare shareMatches
  rw [mapM_map_some]
  dsimp only
  by_cases short : points.length < 2
  · rw [if_pos short, decide_eq_false (by omega)]
    rfl
  rw [if_neg short, decide_eq_true (by omega), evaluate_eq]
  cases skShare with
  | none => rfl
  | some _ =>
    simp only [getPublicKey, Option.map_some, Option.some.injEq]
    exact decide_eq_decide.mpr eq_comm

end

namespace ContributionVerifier

variable {Scalar Point : Type} (verifier : ContributionVerifier Scalar Point)

/-- Vectors of one size that are valid on their own, and as many shares.  `CDKGSession` has made
sure of this before it verifies contributions. -/
structure Given : Prop where
  sameSize : ∀ vvec ∈ verifier.vvecs, vvec.length = verifier.vecSize
  valid : ∀ vvec ∈ verifier.vvecs, verifyVerificationVector verifier.group vvec = true
  paired : verifier.skShares.length = verifier.vvecs.length

variable {verifier} {vvec : List (PublicKey Point)}

theorem Given.eq_map_some (given : verifier.Given) (member : vvec ∈ verifier.vvecs) :
    vvec = vvec.reduceOption.map some := by
  have valid := given.valid vvec member
  unfold verifyVerificationVector validDistinct at valid
  cases all : (vvec.mapM fun key => key) with
  | none =>
    rw [all] at valid
    cases valid
  | some _ =>
    have same := eq_map_some_of_mapM all
    rw [same, reduceOption, filterMap_map]
    congr 1
    exact filterMap_some.symm

theorem Given.length_reduceOption (given : verifier.Given)
    (member : vvec ∈ verifier.vvecs) : vvec.reduceOption.length = verifier.vecSize := by
  rw [<- given.sameSize vvec member]
  conv_rhs => rw [given.eq_map_some member]
  rw [length_map]

theorem mem_of_mem_batchVvecs {batchIdx : Nat} (member : vvec ∈ verifier.batchVvecs batchIdx) :
    vvec ∈ verifier.vvecs :=
  mem_of_mem_drop (mem_of_mem_take member)

theorem length_batchVvecs {batchIdx : Nat} :
    (verifier.batchVvecs batchIdx).length = verifier.count batchIdx := by
  rw [batchVvecs, length_take, length_drop, count]
  omega

theorem Given.length_batchShares (given : verifier.Given) {batchIdx : Nat} :
    (verifier.batchShares batchIdx).length = verifier.count batchIdx := by
  rw [batchShares, length_take, length_drop, count, given.paired]
  omega

theorem start_div_add_mod (index : Nat) :
    verifier.start (index / verifier.batchSize) + index % verifier.batchSize = index :=
  Nat.div_add_mod' index verifier.batchSize

theorem start_add_lt {batchIdx index : Nat} (inside : index < verifier.count batchIdx) :
    verifier.start batchIdx + index < verifier.vvecs.length := by
  unfold count at inside
  omega

variable [CommRing Scalar] [AddCommGroup Point] [Module Scalar Point] [DecidableEq Point] (verifier)

def matchesAt (index : Nat) : Bool :=
  shareMatches verifier.group verifier.forId (verifier.vvecs.getD index [])
    (verifier.skShares.getD index none)

/-- Every schedule delivers one result, which says of every share whether it matches.  Nothing is
assumed about the order in which the threads take their jobs. -/
def Exact : Prop :=
  ∀ schedule : Nat -> Nat, ∃ enough, ∀ steps, enough <= steps ->
    (verifyContributionShares verifier.group verifier.forId (verifier.vvecs.map some) verifier.skShares
      verifier.parallel verifier.aggregated schedule steps).delivered =
        [(range verifier.vvecs.length).map verifier.matchesAt]

def NoneMatches : Prop :=
  ∀ index < verifier.vvecs.length, verifier.matchesAt index = false

/-- The shares of a batch add up to what its vectors add up to. -/
def AddsUp (x : Scalar) (batchIdx : Nat) : Prop :=
  ((verifier.batchVvecs batchIdx).map fun vvec => polynomialValue x vvec.reduceOption).sum =
    ((verifier.batchShares batchIdx).map fun share => share.getD 0 • verifier.group.generator).sum

instance (x : Scalar) (batchIdx : Nat) : Decidable (verifier.AddsUp x batchIdx) :=
  inferInstanceAs (Decidable (_ = _))

/-- Only a share that is alone in its batch is not valid, and valid shares add up only if they
match. -/
structure BatchReliable (x : Scalar) (batchIdx : Nat) : Prop where
  valid : none ∈ verifier.batchShares batchIdx -> verifier.count batchIdx = 1
  uncancelled : 2 <= verifier.vecSize -> none ∉ verifier.batchShares batchIdx ->
    verifier.AddsUp x batchIdx ->
    ∀ index < verifier.count batchIdx, verifier.matchesAt (verifier.start batchIdx + index) = true

/-- When a verification can be trusted.  If two vectors have an entry in common, or fewer than two
entries, then no share must match. -/
def Reliable : Prop :=
  ∀ x, verifier.forId = some x ->
    if validDistinct verifier.group verifier.vvecs.flatten then
      verifier.vvecs ≠ [] /\ (verifier.vecSize < 2 -> verifier.NoneMatches) /\
        (verifier.aggregated = true -> 0 < verifier.vecSize /\
          ∀ batchIdx < verifier.batchCount, verifier.BatchReliable x batchIdx)
    else verifier.NoneMatches

variable {verifier}

section

variable {x : Scalar} {batchIdx : Nat} {index : Nat}

variable (given : verifier.Given)

include given

section

variable (positive : 0 < verifier.count batchIdx)

include positive

omit [Module Scalar Point] [DecidableEq Point]

omit [CommRing Scalar] in
theorem Given.aggregatedKey_eq {entry : Nat} (listed : entry < verifier.vecSize) :
    verifier.aggregatedKey batchIdx entry =
      some (some (((verifier.batchVvecs batchIdx).map reduceOption).map fun points =>
        points.getD entry 0).sum) := by
  rw [aggregatedKey, <- syncAggregate_map_some]
  · rw [map_map, map_map]
    refine congrArg syncAggregate (map_congr_left fun vvec member => ?_)
    have known := mem_of_mem_batchVvecs member
    have inside : entry < vvec.reduceOption.length := by
      rw [given.length_reduceOption known]
      exact listed
    conv_lhs => rw [given.eq_map_some known]
    simp [inside]
  · rw [<- length_pos_iff, length_map, length_map, length_batchVvecs]
    exact positive

omit [CommRing Scalar] in
theorem Given.aggregatedVvec_eq :
    verifier.aggregatedVvec batchIdx = ((range verifier.vecSize).map fun entry =>
        (((verifier.batchVvecs batchIdx).map reduceOption).map fun points => points.getD entry 0).sum).map
          some := by
  rw [map_map]
  refine map_congr_left fun entry listed => ?_
  rw [given.aggregatedKey_eq positive (mem_range.mp listed)]
  rfl

omit [AddCommGroup Point] in
theorem Given.aggregatedShare_eq (valid : none ∉ verifier.batchShares batchIdx) :
    verifier.aggregatedShare batchIdx =
      some (some ((verifier.batchShares batchIdx).map fun share => share.getD 0).sum) := by
  rw [aggregatedShare, <- syncAggregate_map_some]
  · rw [map_map]
    refine congrArg syncAggregate ((map_id _).symm.trans (map_congr_left fun share member => ?_))
    cases share with
    | none => exact absurd member valid
    | some _ => rfl
  · rw [<- length_pos_iff, length_map, given.length_batchShares]
    exact positive

omit [AddCommGroup Point] in
/-- No assertion fails if a share that is not valid is alone in its batch. -/
theorem Given.aggregatedShare_ne_none_iff : verifier.aggregatedShare batchIdx ≠ none <->
      (none ∈ verifier.batchShares batchIdx -> verifier.count batchIdx = 1) := by
  have length := @Given.length_batchShares _ _ verifier given batchIdx
  by_cases invalid : none ∈ verifier.batchShares batchIdx
  · simp only [invalid, true_implies]
    unfold aggregatedShare
    generalize verifier.batchShares batchIdx = shares at length invalid
    match shares, invalid with
    | [share], _ =>
      refine iff_of_true (Option.some_ne_none _) ?_
      rw [<- length]
      rfl
    | first :: second :: rest, invalid =>
      rw [syncAggregate_eq_none invalid]
      refine iff_of_false (fun contrary => contrary rfl) ?_
      rw [<- length]
      simp
  · rw [given.aggregatedShare_eq positive invalid]
    exact iff_of_true (Option.some_ne_none _) fun contrary => absurd contrary invalid

end

theorem Given.verify_batch (known : verifier.forId = some x)
    (positive : 0 < verifier.count batchIdx) (valid : none ∉ verifier.batchShares batchIdx) :
    verify verifier.group verifier.forId (verifier.aggregatedVvec batchIdx)
      ((verifier.aggregatedShare batchIdx).getD none) =
      (decide (2 <= verifier.vecSize) && decide (verifier.AddsUp x batchIdx)) := by
  rw [known, given.aggregatedVvec_eq positive, given.aggregatedShare_eq positive valid,
    verify_map_some, length_map, length_range]
  congr 1
  unfold shareMatches
  rw [mapM_map_some]
  refine decide_eq_decide.mpr ?_
  rw [polynomialValue_sum x fun points member => ?_, sum_smul, map_map, map_map]
  · exact Iff.rfl
  · rcases mem_map.mp member with ⟨_, listed, rfl⟩
    exact given.length_reduceOption (mem_of_mem_batchVvecs listed)

omit [Module Scalar Point] [DecidableEq Point] in
/-- Nothing fails if and only if shares that are not valid are alone. -/
theorem Given.aggregates_iff (nonempty : verifier.vvecs ≠ []) :
    verifier.Aggregates <-> (verifier.aggregated = true -> ∀ batchIdx < verifier.batchCount,
      none ∈ verifier.batchShares batchIdx -> verifier.count batchIdx = 1) := by
  refine forall_congr' fun aggregated => forall_congr' fun batchIdx =>
    forall_congr' fun inside => ?_
  have positive := count_pos nonempty inside
  rw [given.aggregatedShare_ne_none_iff positive]
  refine and_iff_right fun entry listed => ?_
  rw [given.aggregatedKey_eq positive listed]
  exact Option.some_ne_none _

/-- The result of a batch without aggregation, or whose aggregates are wrong. -/
theorem Given.oneResult_eq (known : verifier.forId = some x)
    (inside : verifier.start batchIdx + index < verifier.vvecs.length) :
    verifier.oneResult batchIdx index =
      (decide (2 <= verifier.vecSize) && verifier.matchesAt (verifier.start batchIdx + index)) := by
  have member := getElem_mem inside
  rw [<- getD_eq_getElem _ [] inside] at member
  unfold oneResult matchesAt
  rw [known, given.eq_map_some member, verify_map_some, given.length_reduceOption member]

theorem Given.batchResult_of_valid (known : verifier.forId = some x)
    (aggregated : verifier.aggregated = true) (entries : 0 < verifier.vecSize)
    (valid : none ∉ verifier.batchShares batchIdx) (inside : index < verifier.count batchIdx) :
    verifier.batchResult batchIdx index = (decide (2 <= verifier.vecSize) &&
      (decide (verifier.AddsUp x batchIdx) || verifier.matchesAt (verifier.start batchIdx + index))) := by
  have positive : 0 < verifier.count batchIdx := by omega
  have usable : verifier.broken batchIdx = false := by
    unfold broken
    rw [given.aggregatedShare_eq positive valid, given.aggregatedVvec_eq positive]
    simp [ne_of_gt entries]
  rw [batchResult, if_pos aggregated, usable,
    given.verify_batch known positive valid, given.oneResult_eq known (start_add_lt inside), Bool.not_false,
    Bool.true_and, <- Bool.and_or_distrib_left]

theorem Given.matchesAt_of_invalid (alone : verifier.count batchIdx = 1)
    (invalid : none ∈ verifier.batchShares batchIdx) :
    verifier.matchesAt (verifier.start batchIdx) = false /\ verifier.broken batchIdx = true := by
  have length := @Given.length_batchShares _ _ verifier given batchIdx
  rw [alone] at length
  rcases length_eq_one_iff.mp length with ⟨_, single⟩
  rw [single, mem_singleton] at invalid
  subst invalid
  have missing : verifier.skShares.getD (verifier.start batchIdx) none = none := by
    have first : (verifier.batchShares batchIdx).getD 0 none = none := by rw [single]; rfl
    rw [batchShares, alone] at first
    simpa [getD_eq_getElem?_getD, getElem?_take, getElem?_drop] using first
  constructor
  · unfold matchesAt shareMatches
    rw [missing]
    split
    · next contrary => cases contrary
    · rfl
  · unfold broken aggregatedShare
    rw [single]
    simp [syncAggregate]

/-- The results of a batch say which shares match if and only if the batch can be trusted. -/
theorem Given.batch_iff (known : verifier.forId = some x)
    (aggregated : verifier.aggregated = true) (entries : 0 < verifier.vecSize)
    (alone : none ∈ verifier.batchShares batchIdx -> verifier.count batchIdx = 1)
    (short : verifier.vecSize < 2 -> verifier.NoneMatches) : (∀ index < verifier.count batchIdx,
      verifier.batchResult batchIdx index = verifier.matchesAt (verifier.start batchIdx + index)) <->
      verifier.BatchReliable x batchIdx := by
  refine ⟨fun right => ⟨alone, fun long valid addsUp index listed => ?_⟩,
    fun reliable index listed => ?_⟩
  · rw [<- right index listed, given.batchResult_of_valid known aggregated entries valid listed,
      decide_eq_true long, decide_eq_true addsUp]
    rfl
  by_cases valid : none ∈ verifier.batchShares batchIdx
  · have single := alone valid
    have wrong := given.matchesAt_of_invalid single valid
    have first : index = 0 := by omega
    subst first
    rw [add_zero, wrong.1, batchResult, if_pos aggregated, wrong.2]
    rfl
  · rw [given.batchResult_of_valid known aggregated entries valid listed]
    by_cases long : 2 <= verifier.vecSize
    · rw [decide_eq_true long, Bool.true_and]
      by_cases addsUp : verifier.AddsUp x batchIdx
      · rw [reliable.uncancelled long valid addsUp index listed, Bool.or_true]
      · rw [decide_eq_false addsUp, Bool.false_or]
    · rw [decide_eq_false long, Bool.false_and,
        short (by omega) (verifier.start batchIdx + index) (start_add_lt listed)]

end

section

variable {x : Scalar}

theorem finalResult_eq_iff :
    verifier.finalResult = (range verifier.vvecs.length).map verifier.matchesAt <->
    ∀ batchIdx < verifier.batchCount, ∀ index < verifier.count batchIdx,
      verifier.batchResult batchIdx index = verifier.matchesAt (verifier.start batchIdx + index) := by
  refine map_inj_left.trans ⟨fun right batchIdx inside index listed => ?_,
    fun right index listed => ?_⟩
  · have whole := right (verifier.start batchIdx + index) (mem_range.mpr (start_add_lt listed))
    have less := lt_of_lt_of_le listed (min_le_left _ _)
    rw [start, mul_comm, Nat.mul_add_div (by omega), Nat.div_eq_of_lt less, Nat.mul_add_mod,
      Nat.mod_eq_of_lt less, mul_comm] at whole
    exact whole
  · have placed := @batch_of_index _ _ verifier index (mem_range.mp listed)
    rw [right _ placed.1 _ placed.2, start_div_add_mod]

/-- The result is right if and only if all batches can be trusted. -/
theorem Given.finalResult_iff (given : verifier.Given) (known : verifier.forId = some x)
    (alone : verifier.aggregated = true -> ∀ batchIdx < verifier.batchCount,
      none ∈ verifier.batchShares batchIdx -> verifier.count batchIdx = 1)
    (entries : verifier.aggregated = true -> 0 < verifier.vecSize) :
    verifier.finalResult = (range verifier.vvecs.length).map verifier.matchesAt <->
      (verifier.vecSize < 2 -> verifier.NoneMatches) /\ (verifier.aggregated = true ->
        ∀ batchIdx < verifier.batchCount, verifier.BatchReliable x batchIdx) := by
  rw [finalResult_eq_iff]
  have short : (∀ batchIdx < verifier.batchCount, ∀ index < verifier.count batchIdx,
    verifier.batchResult batchIdx index = verifier.matchesAt (verifier.start batchIdx + index)) ->
    verifier.vecSize < 2 -> verifier.NoneMatches := by
    intro right few index listed
    have placed := @batch_of_index _ _ verifier index listed
    have said := right _ placed.1 _ placed.2
    have inside := @start_add_lt _ _ verifier _ _ placed.2
    rw [start_div_add_mod] at said
    rw [<- said, batchResult]
    have one : verifier.oneResult (index / verifier.batchSize) (index % verifier.batchSize) = false := by
      rw [given.oneResult_eq known inside, decide_eq_false (by omega), Bool.false_and]
    split
    · next aggregated =>
      by_cases valid : none ∈ verifier.batchShares (index / verifier.batchSize)
      · rw [(given.matchesAt_of_invalid (alone aggregated _ placed.1 valid) valid).2]
        rfl
      · rw [given.verify_batch known (by omega) valid, one, decide_eq_false (by omega),
          Bool.false_and, Bool.or_self, Bool.and_false]
    · exact one
  cases aggregated : verifier.aggregated with
  | true =>
    have each := fun fewer batchIdx inside =>
      @Given.batch_iff _ _ verifier _ _ _ _ x batchIdx given known aggregated (entries aggregated)
        (alone aggregated batchIdx inside) fewer
    refine ⟨fun right => ⟨short right, fun _ batchIdx inside => ?_⟩, fun reliable batchIdx inside => ?_⟩
    · exact (each (short right) batchIdx inside).mp (right batchIdx inside)
    · exact (each reliable.1 batchIdx inside).mpr (reliable.2 rfl batchIdx inside)
  | false =>
    refine ⟨fun right => ⟨short right, by simp⟩, fun fewer batchIdx inside index listed => ?_⟩
    rw [batchResult, aggregated, if_neg (by decide), given.oneResult_eq known (start_add_lt listed)]
    by_cases long : 2 <= verifier.vecSize
    · rw [decide_eq_true long, Bool.true_and]
    · rw [decide_eq_false long, Bool.false_and, fewer.1 (by omega) _ (start_add_lt listed)]

/-- If the id is not valid or two vectors have an entry in common, nothing is verified. -/
theorem exact_of_rejected
    (rejected : verifier.forId = none \/ validDistinct verifier.group verifier.vvecs.flatten = false) :
    verifier.Exact <-> verifier.NoneMatches := by
  have early : ∀ schedule steps,
    (verifyContributionShares verifier.group verifier.forId (verifier.vvecs.map some) verifier.skShares
      verifier.parallel verifier.aggregated schedule steps).delivered =
        [replicate verifier.vvecs.length false] := by
    intro schedule steps
    have begins : asyncVerifyContributionShares verifier.group verifier.forId (verifier.vvecs.map some)
      verifier.skShares verifier.parallel verifier.aggregated =
        .ofThreads { delivered := [replicate verifier.vvecs.length false] } [] := by
      unfold asyncVerifyContributionShares verifyVerificationVectors
      rcases rejected with unknown | duplicate
      · simp [unknown]
      · simp [duplicate]
    unfold verifyContributionShares
    rw [begins, WorkerPool.run_of_rest (.inr rfl)]
    rfl
  unfold Exact NoneMatches
  simp only [early, cons.injEq, and_true]
  refine ⟨fun exact index inside => ?_, fun none schedule => ⟨0, fun steps _ => ?_⟩⟩
  · rcases exact fun _ => 0 with ⟨enough, same⟩
    have whole := same enough le_rfl
    have entry := congrArg (fun results => results[index]?) whole
    simpa [inside] using entry.symm
  · refine (eq_replicate_iff.mpr ⟨?_, ?_⟩).symm
    · rw [length_map, length_range]
    · intro result member
      rcases mem_map.mp member with ⟨index, inside, rfl⟩
      exact none index (mem_range.mp inside)

theorem Given.state_eq (given : verifier.Given) (known : verifier.forId = some x)
    (distinct : validDistinct verifier.group verifier.vvecs.flatten = true) (schedule : Nat -> Nat)
    (steps : Nat) :
    verifyContributionShares verifier.group verifier.forId (verifier.vvecs.map some) verifier.skShares
      verifier.parallel verifier.aggregated schedule steps = verifier.runState schedule steps := by
  have vectors : (verifier.vvecs.map some).map (fun vvec => vvec.getD []) = verifier.vvecs := by
    rw [map_map]
    exact map_id _
  have sizes : (verifier.vvecs.all fun vvec => decide (vvec.length = (verifier.vvecs.headD []).length)) = true :=
    all_eq_true.mpr fun vvec member => decide_eq_true (given.sameSize vvec member)
  have begins :
    asyncVerifyContributionShares verifier.group verifier.forId (verifier.vvecs.map some)
    verifier.skShares verifier.parallel verifier.aggregated = verifier.started := by
    unfold asyncVerifyContributionShares verifyVerificationVectors
    rw [vectors]
    dsimp only
    rw [sizes, distinct, if_neg (by simp [known])]
    rfl
  unfold verifyContributionShares runState
  rw [begins, vectors]

/-- A verification is exact if and only if it can be trusted.  Wrong shares whose errors cancel make
an aggregated batch pass, and vectors that are refused as a whole cost the shares that match. -/
theorem exact_iff_reliable (verifier : ContributionVerifier Scalar Point) (given : verifier.Given) :
    verifier.Exact <-> verifier.Reliable := by
  unfold Reliable
  cases known : verifier.forId with
  | none =>
    refine iff_of_true ((exact_of_rejected (.inl known)).mpr fun index _ => ?_) nofun
    unfold matchesAt
    rw [known]
    rfl
  | some _ =>
    simp only [Option.some.injEq, forall_eq']
    cases distinct : validDistinct verifier.group verifier.vvecs.flatten with
    | false =>
      exact exact_of_rejected (.inr distinct)
    | true =>
      unfold Exact
      simp only [given.state_eq known distinct]
      by_cases nonempty : verifier.vvecs = []
      · refine iff_of_false (fun exact => ?_) (fun reliable => reliable.1 nonempty)
        rcases exact fun _ => 0 with ⟨enough, same⟩
        have whole := same enough le_rfl
        rw [silent_of_empty nonempty] at whole
        cases whole
      · by_cases works : verifier.Aggregates /\ (verifier.aggregated = true -> 0 < verifier.vecSize)
        · have alone := (given.aggregates_iff nonempty).mp works.1
          have right := given.finalResult_iff known alone works.2
          refine Iff.trans ⟨fun exact => ?_, fun same schedule => ?_⟩ (right.trans ?_)
          · rcases exact fun _ => 0 with ⟨enough, same⟩
            rcases delivers nonempty works.1 works.2 fun _ => 0 with ⟨later, delivered⟩
            have first := same (max enough later) (le_max_left _ _)
            rw [delivered (max enough later) (le_max_right _ _)] at first
            exact cons.inj first |>.1
          · rw [<- same]
            exact delivers nonempty works.1 works.2 schedule
          · refine ⟨fun reliable => ⟨nonempty, reliable.1, fun aggregated => ⟨works.2 aggregated,
              reliable.2 aggregated⟩⟩, fun reliable => ⟨reliable.2.1, fun aggregated =>
                (reliable.2.2 aggregated).2⟩⟩
        · refine iff_of_false (fun exact => ?_) (fun reliable => works ⟨?_, fun aggregated =>
            (reliable.2.2 aggregated).1⟩)
          · rcases exact fun _ => 0 with ⟨enough, same⟩
            have whole := same enough le_rfl
            rw [silent nonempty works] at whole
            cases whole
          · refine (given.aggregates_iff nonempty).mpr fun aggregated batchIdx inside => ?_
            exact ((reliable.2.2 aggregated).2 batchIdx inside).valid

end

/-- The group of order seven. -/
def sampleGroup : KeyGroup (ZMod 7) where
  generator := 1
  getHash point := BitVec.ofNat 256 point.val

/-- The vectors have the values 3 and 0 at the id 1. -/
def sampleVerifier (skShares : List (SecretKey (ZMod 7))) :
    ContributionVerifier (ZMod 7) (ZMod 7) where
  group := sampleGroup
  forId := some 1
  vvecs := [[some 1, some 2], [some 3, some 4]]
  skShares := skShares
  parallel := true
  aggregated := true

/-- A wrong share is found. -/
theorem exact_one_wrong : (sampleVerifier [some 3, some 1]).Exact /\
    (range 2).map (sampleVerifier [some 3, some 1]).matchesAt = [true, false] := by
  refine ⟨(exact_iff_reliable (sampleVerifier [some 3, some 1]) ⟨?_, ?_, ?_⟩).mpr ?_, ?_⟩
  · decide
  · decide
  · decide
  · rintro _ known
    injection known with known
    subst known
    refine ⟨by decide, nofun, fun _ => ⟨by decide, fun batchIdx inside => ?_⟩⟩
    have first := Nat.lt_one_iff.mp inside
    subst first
    exact ⟨by decide, nofun⟩
  · decide

/-- Two wrong shares are accepted whose errors cancel, and without shares there is no answer. -/
theorem cancelled_shares_accepted : (sampleVerifier [some 4, some 6]).Given /\
    (range 2).map (sampleVerifier [some 4, some 6]).matchesAt = [false, false] /\
    (verifyContributionShares sampleGroup (some (1 : ZMod 7)) [some [some 1, some 2], some [some 3, some 4]]
      [some 4, some 6] true true (fun _ => 0) 60).delivered = [[true, true]] /\
    ¬ (sampleVerifier [some 4, some 6]).Exact /\
    ∀ schedule steps, (verifyContributionShares sampleGroup (some (1 : ZMod 7)) [] [] true true
      schedule steps).delivered = [] := by
  have given : (sampleVerifier [some 4, some 6]).Given := ⟨by decide, by decide, by decide⟩
  refine ⟨given, by decide, by decide +kernel, fun exact => ?_, fun schedule steps => ?_⟩
  · rcases exact fun _ => 0 with ⟨enough, same⟩
    rcases @delivers _ _ (sampleVerifier [some 4, some 6]) _ _ _ _ (by decide)
      (by unfold Aggregates; decide) (by decide) fun _ => 0 with ⟨later, delivered⟩
    have first := same (max enough later) (le_max_left _ _)
    rw [given.state_eq rfl (by decide), delivered (max enough later) (le_max_right _ _)] at first
    cases first
  · exact @silent_of_empty _ _ ⟨sampleGroup, some 1, [], [], true, true⟩ _ _ _ _ rfl schedule steps

end ContributionVerifier
end StakeCubeCoin.Bls
