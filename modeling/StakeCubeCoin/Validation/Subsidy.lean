import Mathlib.Tactic.IntervalCases
import Mathlib.Tactic.LinearCombination
import StakeCubeCoin.Library.Binary64
import StakeCubeCoin.Validation.Checks

namespace StakeCubeCoin.Validation

open Primitives Library.Binary64 Int

/-!
# The reward of a block

`GetBlockSubsidy` and `GetMasternodePayment` of `validation.cpp`.  The schedule is in steps;
`0.1 * COIN` and `0.5 * COIN` are exact.  The share of the masternode is a product of doubles,
rounded to the nearest double and cut to an integer.
-/

def getBlockSubsidy (nPrevHeight : Int) : CAmount :=
  let nHeight := nPrevHeight + 1
  if nHeight = 0 then 0 * COIN
  else if nHeight = 1 then 7500000 * COIN
  else if 1 < nHeight /\ nHeight <= 5000 then COIN / 10
  else if 5000 < nHeight /\ nHeight <= 250000 then 9 * COIN
  else if 250000 < nHeight /\ nHeight <= 500000 then 8 * COIN
  else if 500000 < nHeight /\ nHeight <= 750000 then 7 * COIN
  else if 750000 < nHeight /\ nHeight <= 1000000 then 6 * COIN
  else if 1000000 < nHeight /\ nHeight <= 1250000 then 5 * COIN
  else if 1250000 < nHeight /\ nHeight <= 1500000 then 4 * COIN
  else if 1500000 < nHeight /\ nHeight <= 1750000 then 3 * COIN
  else if 1750000 < nHeight /\ nHeight <= 2000000 then 2 * COIN
  else if 2000000 < nHeight /\ nHeight <= 2250000 then 1 * COIN
  else if 2250000 < nHeight then COIN / 2
  else 0

variable {nPrevHeight : Int}

/-- What holds at every step of the schedule from some height on holds of the subsidy. -/
theorem getBlockSubsidy_rule {P : CAmount -> Prop}
    (outside : nPrevHeight < 0 -> P 0) (first : P (7500000 * COIN)) (start : P (COIN / 10))
    (years : ∀ step : Nat, 1 <= step -> step <= 9 -> P (step * COIN)) (final : P (COIN / 2)) :
    P (getBlockSubsidy nPrevHeight) := by
  refine iteInduction (fun zero => outside (by omega)) fun notZero => ?_
  refine iteInduction (fun _ => first) fun notFirst => ?_
  refine iteInduction (fun _ => start) fun notStart => ?_
  refine iteInduction (fun _ => years 9 (by decide) (by decide)) fun notNine => ?_
  refine iteInduction (fun _ => years 8 (by decide) (by decide)) fun notEight => ?_
  refine iteInduction (fun _ => years 7 (by decide) (by decide)) fun notSeven => ?_
  refine iteInduction (fun _ => years 6 (by decide) (by decide)) fun notSix => ?_
  refine iteInduction (fun _ => years 5 (by decide) (by decide)) fun notFive => ?_
  refine iteInduction (fun _ => years 4 (by decide) (by decide)) fun notFour => ?_
  refine iteInduction (fun _ => years 3 (by decide) (by decide)) fun notThree => ?_
  refine iteInduction (fun _ => years 2 (by decide) (by decide)) fun notTwo => ?_
  refine iteInduction (fun _ => years 1 (by decide) (by decide)) fun notOne => ?_
  exact iteInduction (fun _ => final) fun notFinal => outside (by omega)

theorem getBlockSubsidy_bounds (nPrevHeight : Int) :
    0 <= getBlockSubsidy nPrevHeight /\ getBlockSubsidy nPrevHeight <= 7500000 * COIN := by
  refine getBlockSubsidy_rule (P := fun amount => 0 <= amount /\ amount <= 7500000 * COIN)
    (fun _ => by decide) (by decide) (by decide) ?_ (by decide)
  intro step _ upper
  change 0 <= (step : Int) * 100000000 /\ (step : Int) * 100000000 <= 7500000 * 100000000
  omega

theorem getBlockSubsidy_pos (above : 0 <= nPrevHeight) : 0 < getBlockSubsidy nPrevHeight := by
  refine getBlockSubsidy_rule (P := fun amount => 0 < amount)
    (fun below => absurd below (not_lt.mpr above)) (by decide) (by decide) ?_ (by decide)
  intro step lower _
  change 0 < (step : Int) * 100000000
  omega

/-- The coins created by the subsidies of the blocks at the heights `0` to `nHeight`. -/
def issued (nHeight : Nat) : CAmount :=
  ((List.range (nHeight + 1)).map fun height : Nat => getBlockSubsidy (height - 1)).sum

theorem issued_succ (nHeight : Nat) :
    issued (nHeight + 1) = issued nHeight + getBlockSubsidy nHeight := by
  rw [issued, List.range_succ, List.map_append]
  simp [issued]

theorem issued_mono {first last : Nat} (le : first <= last) : issued first <= issued last := by
  induction le with
  | refl => exact le_refl _
  | step _ ih =>
    rw [issued_succ]
    exact ih.trans (le_add_of_nonneg_right (getBlockSubsidy_bounds _).1)

/-- A stretch of the schedule in which every block creates the same amount. -/
theorem issued_stretch {start : Nat} {total : CAmount} (before : issued start = total)
    (amount : CAmount) (count : Nat)
    (same : ∀ nPrevHeight : Int, start <= nPrevHeight -> nPrevHeight < start + count ->
      getBlockSubsidy nPrevHeight = amount) : issued (start + count) = total + count * amount := by
  induction count with
  | zero => simpa using before
  | succ count ih =>
    rw [<- add_assoc, issued_succ, ih fun nPrevHeight above below => same nPrevHeight above (by omega),
      same _ (by omega) (by omega)]
    push_cast
    ring

/-- From the height 5000 on, each stretch of 250000 blocks creates one coin a block less. -/
theorem getBlockSubsidy_year (year : Nat) (le : year <= 8) (above : 5000 <= nPrevHeight)
    (started : 250000 * year <= nPrevHeight) (running : nPrevHeight < 250000 * (year + 1)) :
    getBlockSubsidy nPrevHeight = (9 - year) * COIN := by
  dsimp only [getBlockSubsidy]
  interval_cases year <;> repeat rw [if_neg (by omega)]
  all_goals exact if_pos (by omega)

theorem issued_years {year : Nat} (le : year <= 8) :
    2 * issued (250000 * (year + 1)) = 2 * 970549990000000 + 250000 * COIN * (year * (17 - year)) := by
  induction year with
  | zero =>
    have swap : issued 1 = 750000000000000 := by decide
    have fair := issued_stretch swap (COIN / 10) 4999 (fun _ above below => by
        dsimp only [getBlockSubsidy]
        repeat rw [if_neg (by omega)]
        exact if_pos (by omega))
    have first := issued_stretch fair (9 * COIN) 245000
      (fun _ above below => getBlockSubsidy_year 0 (by omega) (by omega) (by omega) (by omega))
    rw [first]
    decide
  | succ year ih =>
    have next := issued_stretch (rfl : issued (250000 * (year + 1)) = _) ((9 - (year + 1 : Nat)) * COIN) 250000 (fun _ above below =>
      getBlockSubsidy_year (year + 1) le (by omega) (by omega) (by omega))
    rw [<- Nat.mul_succ] at next
    rw [next]
    push_cast
    linear_combination ih (by omega)

/-- After the years of whole coins every block creates half a coin. -/
theorem issued_halves (count : Nat) :
    issued (2250000 + count) = 1870549990000000 + count * 50000000 := by
  have total : issued 2250000 = 1870549990000000 := by
    have years := issued_years (le_refl 8)
    norm_num [COIN] at years
    linarith
  exact issued_stretch total 50000000 count (fun _ above _ => by
    dsimp only [getBlockSubsidy]
    repeat rw [if_neg (by omega)]
    exact if_pos (by omega))

/-- The issued coins stay in the money range up to the height 6839000 and not beyond: the last
step of the schedule has no end. -/
theorem moneyRange_issued_iff (nHeight : Nat) :
    moneyRange (issued nHeight) = true <-> nHeight <= 6839000 := by
  have nonneg : 0 <= issued nHeight := issued_mono nHeight.zero_le
  have limit := issued_halves 4589000
  have beyond := issued_halves 4589001
  have money : moneyRange (issued nHeight) = true <-> issued nHeight <= 2100000000000000 := by
    rw [moneyRange, decide_eq_true nonneg]
    exact decide_eq_true_iff
  rw [money]
  constructor
  · intro fits
    by_contra above
    have more := issued_mono (Nat.lt_of_not_le above)
    norm_num at beyond more
    linarith
  · intro below
    have less := issued_mono below
    norm_num at limit less
    linarith

theorem not_moneyRange_issued : moneyRange (issued 6839001) = false /\
    issued 6839001 = MAX_MONEY + 40000000 := by
  have beyond := issued_halves 4589001
  rw [beyond]
  decide

/-- The significand of the double `0.7`, whose exponent is `-53`. -/
def SEVEN_TENTHS : Nat := 6305039478318694

def getMasternodePayment (nHeight : Int) (blockValue : CAmount) : CAmount :=
  if 200 < nHeight then
    let share := roundToNearestEven (roundToNearestEven blockValue.natAbs * SEVEN_TENTHS) / 2 ^ PRECISION
    blockValue.sign * share
  else 0

theorem getMasternodePayment_bounds (nHeight : Int) {blockValue : CAmount}
    (positive : 0 <= blockValue) :
    0 <= getMasternodePayment nHeight blockValue /\ getMasternodePayment nHeight blockValue <= blockValue := by
  unfold getMasternodePayment
  split
  · rcases eq_ofNat_of_zero_le positive with ⟨value, rfl⟩
    have first := roundToNearestEven_le value
    have second := roundToNearestEven_le (roundToNearestEven value * SEVEN_TENTHS)
    have share : roundToNearestEven (roundToNearestEven value * SEVEN_TENTHS) / 2 ^ PRECISION <= value := by
      simp only [SEVEN_TENTHS, PRECISION] at *
      omega
    by_cases zero : value = 0
    · simp [zero]
    · rw [sign_natCast_of_ne_zero zero, one_mul]
      exact ⟨natCast_nonneg _, ofNat_le.mpr share⟩
  · exact ⟨le_refl 0, positive⟩

example : getMasternodePayment 5001 (9 * COIN) = 630000000 := by decide +kernel

end StakeCubeCoin.Validation
