import StakeCubeCoin.Validation.ContextualChecks

namespace StakeCubeCoin.Validation

open Primitives Chain Library.Forest List

/-!
# Locks of time

`CalculateSequenceLocks` and `EvaluateSequenceLocks` of `consensus/tx_verify.cpp`.  The median of
the last times does not fall from a block to the next one, so what can be spent stays so.
-/

def LOCKTIME_VERIFY_SEQUENCE : Nat := 1
def SEQUENCE_LOCKTIME_DISABLE_FLAG : Nat := 2 ^ 31
def SEQUENCE_LOCKTIME_TYPE_FLAG : Nat := 2 ^ 22
def SEQUENCE_LOCKTIME_MASK : Nat := 0x0000ffff
def SEQUENCE_LOCKTIME_GRANULARITY : Nat := 9

section

variable (map : BlockMap) (tx : CTransaction) (flags : Nat) (prevHeights : List Nat)
  (block : Uint256)

/-- One round of the loop of `CalculateSequenceLocks`.  There is no result where an ancestor is
missing. -/
def lockInput (lockPair : Int × Int) (input : CTxIn × Nat) : Option (Int × Int) :=
  let (txin, nCoinHeight) := input
  if txin.nSequence &&& SEQUENCE_LOCKTIME_DISABLE_FLAG ≠ 0 then some lockPair
  else if txin.nSequence &&& SEQUENCE_LOCKTIME_TYPE_FLAG ≠ 0 then
    (map.getAncestor block (nCoinHeight - 1)).map fun ancestor =>
      (lockPair.1, max lockPair.2 (getMedianTimePast map ancestor +
        ((txin.nSequence &&& SEQUENCE_LOCKTIME_MASK) <<< SEQUENCE_LOCKTIME_GRANULARITY : Nat) - 1))
  else some (max lockPair.1 (nCoinHeight + (txin.nSequence &&& SEQUENCE_LOCKTIME_MASK : Nat) - 1),
    lockPair.2)

def calculateSequenceLocks : Option (Int × Int) :=
  if tx.nVersion % 2 ^ 32 < 2 \/ flags &&& LOCKTIME_VERIFY_SEQUENCE = 0 then some (-1, -1)
  else (tx.vin.zip prevHeights).foldlM (lockInput map block) (-1, -1)

/-- The assertion that there is a block before is an answer that is missing. -/
def evaluateSequenceLocks (lockPair : Int × Int) : Option Bool :=
  (map.parent block).map fun pprev =>
    !(decide (map.height block <= lockPair.1) || decide (getMedianTimePast map pprev <= lockPair.2))

def sequenceLocks : Option Bool :=
  (calculateSequenceLocks map tx flags prevHeights block).bind (evaluateSequenceLocks map block)

end

/-- An entry of a sorted list is at least a bound if no more are below the bound than stand before
it. -/
theorem le_getElem_iff_countP {times : List Int} (sorted : times.Pairwise (· <= ·)) {place : Nat}
    (inside : place < times.length) (bound : Int) :
    bound <= times[place] <-> times.countP (· < bound) <= place := by
  induction times generalizing place with
  | nil => cases inside
  | cons time rest ih =>
    rcases pairwise_cons.mp sorted with ⟨least, sortedRest⟩
    by_cases below : time < bound
    · cases place with
      | zero => simp [below]
      | succ place => simpa [below] using ih sortedRest (Nat.lt_of_succ_lt_succ inside)
    · have none : (time :: rest).countP (· < bound) = 0 := by
        simp only [countP_eq_zero, mem_cons, decide_eq_true_eq]
        rintro other (rfl | later)
        · exact below
        · exact fun less => below ((least other later).trans_lt less)
      rw [none]
      refine ⟨fun _ => Nat.zero_le _, fun _ => ?_⟩
      rcases mem_cons.mp (getElem_mem inside) with same | later
      · rw [same]
        exact not_lt.mp below
      · exact (not_lt.mp below).trans (least _ later)

variable {map : BlockMap}

theorem le_getMedianTimePast_iff {hash : Uint256} (known : (map hash).isSome = true) (bound : Int) :
    bound <= getMedianTimePast map hash <-> (lastTimes map nMedianTimeSpan (some hash)).countP (· < bound) <=
      (lastTimes map nMedianTimeSpan (some hash)).length / 2 := by
  have nonempty : lastTimes map nMedianTimeSpan (some hash) ≠ [] := by
    rcases Option.isSome_iff_exists.mp known with ⟨entry, found⟩
    simp [lastTimes, nMedianTimeSpan, found]
  unfold getMedianTimePast
  generalize lastTimes map nMedianTimeSpan (some hash) = times at *
  have same := perm_insertionSort (· <= ·) times
  have inside : times.length / 2 < (times.insertionSort (· <= ·)).length := by
    rw [same.length_eq]
    exact Nat.div_lt_self (length_pos_iff.mpr nonempty) (by decide)
  rw [<- same.countP_eq, <- le_getElem_iff_countP (pairwise_insertionSort _ _) inside]
  simp [same.length_eq, getElem?_eq_getElem inside]

theorem lastTimes_take (count : Nat) (hash : Option Uint256) :
    lastTimes map count hash = (lastTimes map (count + 1) hash).take count := by
  induction count generalizing hash with
  | zero => simp [lastTimes]
  | succ count ih =>
    cases hash with
    | none => simp [lastTimes]
    | some hash =>
      unfold lastTimes
      cases map hash with
      | none => simp
      | some entry => simp [ih entry.pprev]

/-- The entries are linked, and every block is later than the median of those before it, as
`ContextualCheckBlockHeader` asks of every header. -/
structure Timely (map : BlockMap) : Prop extends map.Linked where
  later : ∀ hash entry prev, map hash = some entry -> entry.pprev = some prev ->
    getMedianTimePast map prev < entry.nTime.toNat

section

variable (timely : Timely map)

include timely

theorem Timely.getMedianTimePast_parent {hash prev : Uint256} (next : map.parent hash = some prev) :
    getMedianTimePast map prev <= getMedianTimePast map hash := by
  rcases Option.bind_eq_some_iff.mp next with ⟨entry, found, pprev⟩
  rcases timely.linked hash entry prev found pprev with ⟨above, there, _⟩
  have before :=
    (le_getMedianTimePast_iff (by rw [there]; rfl) _).mp (le_refl (getMedianTimePast map prev))
  rw [le_getMedianTimePast_iff (by rw [found]; rfl)]
  have later := timely.later hash entry prev found pprev
  have window : lastTimes map nMedianTimeSpan (some hash) =
      (entry.nTime.toNat : Int) :: (lastTimes map nMedianTimeSpan (some prev)).take 10 := by
    rw [nMedianTimeSpan, <- lastTimes_take, lastTimes, found]
    simp only [pprev]
  have short : (lastTimes map nMedianTimeSpan (some prev)).length <= nMedianTimeSpan := by
    rw [lastTimes_take]
    exact length_take_le _ _
  have fewer := (take_sublist 10 (lastTimes map nMedianTimeSpan (some prev))).countP_le
    (p := (· < getMedianTimePast map prev))
  rw [window, countP_cons_of_neg (by simpa using later.le), length_cons, length_take]
  unfold nMedianTimeSpan at *
  omega

theorem Timely.getMedianTimePast_mono {tip hash : Uint256} (above : Above map.parent tip hash) :
    getMedianTimePast map tip <= getMedianTimePast map hash /\ map.height tip <= map.height hash := by
  rcases above with ⟨steps, found⟩
  induction steps generalizing hash with
  | zero =>
    cases found
    exact ⟨le_refl _, le_refl _⟩
  | succ steps ih =>
    rcases Option.bind_eq_some_iff.mp found with ⟨prev, next, further⟩
    have heights := timely.graded.child hash prev next
    exact ⟨(ih further).1.trans (timely.getMedianTimePast_parent next), (ih further).2.trans (by omega)⟩

theorem Timely.getAncestor_eq {tip hash : Uint256} (above : Above map.parent tip hash)
    {nHeight : Nat} (low : nHeight <= map.height tip) :
    map.getAncestor hash nHeight = map.getAncestor tip nHeight := by
  rcases above with ⟨steps, found⟩
  induction steps generalizing hash with
  | zero =>
    cases found
    rfl
  | succ steps ih =>
    rcases Option.bind_eq_some_iff.mp found with ⟨prev, next, further⟩
    have heights := timely.graded.child hash prev next
    have enough := low.trans (timely.getMedianTimePast_mono ⟨steps, further⟩).2
    have count : map.height hash - nHeight = map.height prev - nHeight + 1 := by omega
    rw [<- ih further, BlockMap.getAncestor, BlockMap.getAncestor, if_neg (by omega),
      if_neg (by omega), count, ancestor_succ_of_parent next]

end

/-- **Once spendable in time, always spendable.**  The median time never goes back along a chain, so
a transaction that is final, or whose sequence locks are met, stays so in every later block. -/
theorem spendable_stays : (∀ map, Timely map -> ∀ hash prev, map.parent hash = some prev ->
      getMedianTimePast map prev <= getMedianTimePast map hash) /\
    ∀ map, Timely map -> ∀ tip later tx, Above map.parent tip later ->
      (isFinalTx tx (map.height tip + 1) (getMedianTimePast map tip) = true ->
        isFinalTx tx (map.height later + 1) (getMedianTimePast map later) = true) /\
      ∀ flags prevHeights block next, map.parent block = some tip -> map.parent next = some later ->
        (∀ nCoinHeight ∈ prevHeights, nCoinHeight <= map.height block) ->
        sequenceLocks map tx flags prevHeights block = some true ->
        sequenceLocks map tx flags prevHeights next = some true := by
  refine ⟨fun map timely hash prev => timely.getMedianTimePast_parent,
    fun map timely tip later tx above => ?_⟩
  rcases timely.getMedianTimePast_mono above with ⟨times, heights⟩
  refine ⟨?_, ?_⟩
  · unfold isFinalTx
    grind
  intro flags prevHeights block next blockTip nextLater low
  have blockHeight := timely.graded.child block tip blockTip
  have nextHeight := timely.graded.child next later nextLater
  have same : ∀ nCoinHeight ∈ prevHeights,
    map.getAncestor next (nCoinHeight - 1) = map.getAncestor block (nCoinHeight - 1) := by
    intro nCoinHeight member
    have bound := low nCoinHeight member
    rw [timely.getAncestor_eq (above.trans (above_of_parent nextLater)) (by omega),
      timely.getAncestor_eq (above_of_parent blockTip) (by omega)]
  have rounds : ∀ (inputs : List (CTxIn × Nat)) lockPair,
    (∀ input ∈ inputs, input.2 ∈ prevHeights) ->
    inputs.foldlM (lockInput map next) lockPair = inputs.foldlM (lockInput map block) lockPair := by
    intro inputs
    induction inputs with
    | nil => exact fun _ _ => rfl
    | cons input rest ih =>
      intro lockPair members
      simp only [foldlM_cons, lockInput, same _ (members input (.head _)),
        ih _ fun other later => members other (.tail _ later)]
  unfold sequenceLocks calculateSequenceLocks evaluateSequenceLocks
  rw [rounds _ _ fun input member => (of_mem_zip member).2, blockTip]
  intro spendable
  rcases Option.bind_eq_some_iff.mp spendable with ⟨lockPair, locks, passes⟩
  grind

/-- Four blocks, the last of which is earlier than the one before it. -/
def fourBlocks : BlockMap :=
  fun hash =>
    if hash = 1 then some { nTime := 500000100 }
    else if hash = 2 then some { pprev := some 1, nHeight := 1, nTime := 500000200 }
    else if hash = 3 then some { pprev := some 2, nHeight := 2, nTime := 500000300 }
    else if hash = 4 then some { pprev := some 3, nHeight := 3, nTime := 500000250 }
    else none

theorem timely_fourBlocks : Timely fourBlocks := by
  have listed : ∀ hash entry, fourBlocks hash = some entry -> hash = 1 \/ hash = 2 \/ hash = 3 \/
    hash = 4 := by
    unfold fourBlocks
    grind
  refine ⟨⟨?_, ?_⟩, ?_⟩
  · intro hash entry prev found previous
    rcases listed hash entry found with rfl | rfl | rfl | rfl <;> cases found <;> cases previous <;>
      exact ⟨_, rfl, rfl⟩
  · intro hash entry found alone
    rcases listed hash entry found with rfl | rfl | rfl | rfl <;> cases found <;> cases alone
    rfl
  · intro hash entry prev found previous
    rcases listed hash entry found with rfl | rfl | rfl | rfl <;> cases found <;> cases previous <;>
      decide +kernel

/-- An input that waits for one block, in a transaction that waits for a time. -/
theorem spendable_stays_fourBlocks :
    let tx : CTransaction := { vin := [{ prevout := ⟨7, 0⟩, nSequence := 1 }], vout := [], nVersion := 2
                               nLockTime := 500000150, hash := 9 }
    isFinalTx tx (fourBlocks.height 3 + 1) (getMedianTimePast fourBlocks 3) = true /\
      sequenceLocks fourBlocks tx 1 [1] 4 = some true := by
  have stays := fun tx => spendable_stays.2 fourBlocks timely_fourBlocks 2 3 tx ⟨1, rfl⟩
  exact ⟨(stays _).1 (by decide +kernel),
    (stays _).2 1 [1] 3 4 rfl rfl (by decide) (by decide +kernel)⟩

end StakeCubeCoin.Validation
