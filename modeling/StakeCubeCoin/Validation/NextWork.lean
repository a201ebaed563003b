import Mathlib.Tactic.Ring
import StakeCubeCoin.Chain.BlockIndex
import StakeCubeCoin.Primitives.Compact

namespace StakeCubeCoin.Validation

open Primitives Chain Nat List Int

/-!
# The next difficulty

`GetNextWorkRequiredSCC` and `DarkGravityWave` of `pow.cpp`.  Both scale a target by a time and
divide it by the time that was wanted.  The multiplication of an `arith_uint256` by an `int64_t`
takes its factor as an `uint32_t`, and the product has 256 bits.
-/

/-- What the retargeting reads of `Consensus::Params`.  No network wants its blocks more than an
hour apart. -/
structure PowParams where
  powLimit : Uint256
  nPowTargetSpacing : Int
  nPowTargetTimespan : Int
  fPowNoRetargeting : Bool := false
  powLimit_ne_zero : powLimit ≠ 0 := by decide +kernel
  spacing_pos : 0 < nPowTargetSpacing := by decide
  spacing_le : nPowTargetSpacing <= 3600 := by decide
  timespan_le : nPowTargetSpacing <= nPowTargetTimespan /\ nPowTargetTimespan <= 86400 := by decide

/-- `CMainParams`, and `CTestNetParams` as well. -/
def mainParams : PowParams where
  powLimit := BitVec.ofNat 256 (2 ^ 236 - 1)
  nPowTargetSpacing := 120
  nPowTargetTimespan := 86400

def devNetParams : PowParams where
  powLimit := BitVec.ofNat 256 (2 ^ 255 - 1)
  nPowTargetSpacing := 150
  nPowTargetTimespan := 86400

/-- `bn *= multiplier; bn /= divisor` with two `int64_t`.  The factor is cut off to 32 bits, as
`operator*=` takes a `uint32_t`, and the product to 256. -/
def scale (bn : Uint256) (multiplier divisor : Int) : Uint256 :=
  bn * (BitVec.ofInt 32 multiplier).setWidth 256 / (BitVec.ofInt 64 divisor).setWidth 256

def targetOf (pindex : CBlockIndex) : Uint256 :=
  (setCompact pindex.nBits).target

namespace PowParams

variable (params : PowParams) (pindexLast pprev : CBlockIndex)

/-- `nActualSpacing` of `GetNextWorkRequiredSCC`.  A block that is earlier than the one before it
counts as one second later. -/
def actualSpacing : Int :=
  let nActualSpacing : Int := pindexLast.nTime.toNat - pprev.nTime.toNat
  if nActualSpacing < 0 then 1 else nActualSpacing

def nInterval : Int :=
  params.nPowTargetTimespan / params.nPowTargetSpacing

def multiplier (nActualSpacing : Int) : Int :=
  (params.nInterval - 1) * params.nPowTargetSpacing + nActualSpacing + nActualSpacing

def factor : Int :=
  params.multiplier (actualSpacing pindexLast pprev)

def divisor : Int :=
  (params.nInterval + 1) * params.nPowTargetSpacing

/-- `bnNew` of `GetNextWorkRequiredSCC` in the end.  Zero and targets above the limit are replaced
by the limit. -/
def nextTarget : Uint256 :=
  let bnNew := scale (targetOf pindexLast) (params.factor pindexLast pprev) params.divisor
  if bnNew = 0 \/ params.powLimit < bnNew then params.powLimit else bnNew

def idealTarget (target : Nat) (nActualSpacing : Int) : Nat :=
  let bnNew := target * (params.multiplier nActualSpacing).toNat / params.divisor.toNat
  if bnNew = 0 \/ params.powLimit.toNat < bnNew then params.powLimit.toNat else bnNew

def getNextWorkRequiredSCC : BitVec 32 :=
  if params.fPowNoRetargeting then pindexLast.nBits
  else if pindexLast.nHeight = 0 \/ pindexLast.nHeight < 24 then getCompact params.powLimit
  else getCompact (params.nextTarget pindexLast pprev)

end PowParams

theorem toNat_ofInt {width : Nat} {value : Int} (nonneg : 0 <= value) (fits : value < 2 ^ width) :
    (BitVec.ofInt width value).toNat = value.toNat := by
  rw [BitVec.toNat_ofInt, emod_eq_of_lt nonneg (by exact_mod_cast fits)]

theorem toNat_scale {bn : Uint256} {multiplier divisor : Int} (nonneg : 0 <= multiplier)
    (fits : multiplier < 2 ^ 32) (positive : 0 < divisor) (short : divisor < 2 ^ 64)
    (room : bn.toNat * multiplier.toNat < 2 ^ 256) :
    (scale bn multiplier divisor).toNat = bn.toNat * multiplier.toNat / divisor.toNat := by
  have factor : ((BitVec.ofInt 32 multiplier).setWidth 256).toNat = multiplier.toNat := by
    rw [BitVec.toNat_setWidth, toNat_ofInt nonneg fits, mod_eq_of_lt (by omega)]
  have quotient : ((BitVec.ofInt 64 divisor).setWidth 256).toNat = divisor.toNat := by
    rw [BitVec.toNat_setWidth, toNat_ofInt (le_of_lt positive) short, mod_eq_of_lt (by omega)]
  rw [scale, BitVec.toNat_udiv, BitVec.toNat_mul, factor, quotient, mod_eq_of_lt room]

/-! ## The target after each block -/

namespace PowParams

variable {params : PowParams} {pindexLast pprev : CBlockIndex}

theorem getNextWorkRequiredSCC_eq (high : 24 <= pindexLast.nHeight)
    (retargets : params.fPowNoRetargeting = false) :
    params.getNextWorkRequiredSCC pindexLast pprev = getCompact (params.nextTarget pindexLast pprev) := by
  rw [getNextWorkRequiredSCC, retargets, if_neg (by simp), if_neg (by omega)]

theorem nextTarget_inRange : params.nextTarget pindexLast pprev ≠ 0 /\
    params.nextTarget pindexLast pprev <= params.powLimit := by
  unfold nextTarget
  dsimp only
  split
  · exact ⟨params.powLimit_ne_zero, BitVec.le_refl _⟩
  · next inside =>
    rw [not_or, BitVec.not_lt] at inside
    exact inside

/-- **Every difficulty that is demanded is in range and canonical.**  `CheckProofOfWork` rejects no
header for its bits alone, and the bits are those that `GetCompact` gives for their target. -/
theorem getNextWorkRequiredSCC_inRange (high : 24 <= pindexLast.nHeight)
    (retargets : params.fPowNoRetargeting = false) :
    (setCompact (params.getNextWorkRequiredSCC pindexLast pprev)).fNegative = false /\
      (setCompact (params.getNextWorkRequiredSCC pindexLast pprev)).fOverflow = false /\
      1 <= (setCompact (params.getNextWorkRequiredSCC pindexLast pprev)).target /\
      (setCompact (params.getNextWorkRequiredSCC pindexLast pprev)).target <= params.powLimit /\
      getCompact (setCompact (params.getNextWorkRequiredSCC pindexLast pprev)).target =
        params.getNextWorkRequiredSCC pindexLast pprev := by
  rcases @nextTarget_inRange params pindexLast pprev with ⟨positive, most⟩
  have nonzero : (params.nextTarget pindexLast pprev).toNat ≠ 0 := fun zero =>
    positive (BitVec.eq_of_toNat_eq zero)
  rw [getNextWorkRequiredSCC_eq high retargets, setCompact_getCompact]
  refine ⟨rfl, rfl, ?_, ?_, getCompact_compacted _⟩
  · rw [BitVec.le_def, toNat_compacted]
    exact le_trans (Nat.two_pow_pos _) (two_pow_log2_le_compacted nonzero)
  · rw [BitVec.le_def, toNat_compacted]
    exact le_trans compacted_le (BitVec.le_def.mp most)

theorem getNextWorkRequiredSCC_inRange_main :
    let last : CBlockIndex := { nHeight := 1000, nTime := 1600000100, nBits := 0x1e07ffff }
    let prev : CBlockIndex := { nHeight := 999, nTime := 1600000000, nBits := 0x1e07ffff }
    getCompact (setCompact (mainParams.getNextWorkRequiredSCC last prev)).target =
      mainParams.getNextWorkRequiredSCC last prev :=
  (getNextWorkRequiredSCC_inRange (by decide) rfl).2.2.2.2

/-! ## Without a loss of bits -/

theorem actualSpacing_nonneg : 0 <= actualSpacing pindexLast pprev := by
  unfold actualSpacing
  dsimp only
  split <;> omega

variable (params) in
theorem nInterval_pos : 1 <= params.nInterval :=
  Int.le_ediv_of_mul_le params.spacing_pos (by rw [one_mul]; exact params.timespan_le.1)

variable (params) in
theorem factors : 0 <= (params.nInterval - 1) * params.nPowTargetSpacing /\
    params.divisor = (params.nInterval - 1) * params.nPowTargetSpacing + 2 * params.nPowTargetSpacing /\
    params.divisor < 2 ^ 64 := by
  have spaces := params.spacing_pos
  have most : params.nInterval * params.nPowTargetSpacing <= params.nPowTargetTimespan :=
    Int.ediv_mul_le _ (Int.ne_of_gt spaces)
  have bounds := params.timespan_le
  refine ⟨Int.mul_nonneg (by have := nInterval_pos params; omega) (le_of_lt spaces), ?_, ?_⟩
  · rw [divisor, sub_mul, add_mul]
    omega
  · rw [divisor, add_mul]
    omega

theorem toNat_nextTarget (fits : params.factor pindexLast pprev < 2 ^ 32)
    (room : (targetOf pindexLast).toNat * (params.factor pindexLast pprev).toNat < 2 ^ 256) :
    (params.nextTarget pindexLast pprev).toNat = params.idealTarget (targetOf pindexLast).toNat (actualSpacing pindexLast pprev) := by
  rcases params.factors with ⟨_, _, short⟩
  have spaces := params.spacing_pos
  have spacing := @actualSpacing_nonneg pindexLast pprev
  have scaled := toNat_scale (by unfold factor multiplier; omega) fits (by omega) short room
  unfold factor at scaled
  unfold nextTarget idealTarget factor
  simp only [<- scaled, BitVec.lt_def, <- BitVec.toNat_inj, apply_ite BitVec.toNat]
  rfl

/-- **No bits are lost exactly if the factor has 32 bits and the product 256.**  Then the result is
that of unbounded integers. -/
theorem getNextWorkRequiredSCC_exact_iff (high : 24 <= pindexLast.nHeight)
    (retargets : params.fPowNoRetargeting = false) :
    (params.getNextWorkRequiredSCC pindexLast pprev =
        getCompact (BitVec.ofNat 256 (params.idealTarget (targetOf pindexLast).toNat (actualSpacing pindexLast pprev))) /\
      (BitVec.ofInt 32 (params.factor pindexLast pprev)).toNat = (params.factor pindexLast pprev).toNat /\
      (targetOf pindexLast).toNat * (BitVec.ofInt 32 (params.factor pindexLast pprev)).toNat <
        2 ^ 256) <-> params.factor pindexLast pprev < 2 ^ 32 /\
        (targetOf pindexLast).toNat * (params.factor pindexLast pprev).toNat < 2 ^ 256 := by
  constructor
  · rintro ⟨_, same, room⟩
    have less := (BitVec.ofInt 32 (params.factor pindexLast pprev)).isLt
    rw [same] at room less
    exact ⟨by omega, room⟩
  · rintro ⟨fits, room⟩
    have spacing := @actualSpacing_nonneg pindexLast pprev
    have same := toNat_ofInt (by have := params.factors.1; unfold factor multiplier; omega) fits
    rw [getNextWorkRequiredSCC_eq high retargets, same, <- toNat_nextTarget fits room,
      BitVec.ofNat_toNat, BitVec.setWidth_eq]
    exact ⟨rfl, rfl, room⟩

/-- A day without a block, at the lowest difficulty. -/
theorem getNextWorkRequiredSCC_exact_iff_day :
    mainParams.getNextWorkRequiredSCC { nHeight := 24, nBits := 0x1e0fffff, nTime := 86400 } { nHeight := 23 } =
      getCompact (BitVec.ofNat 256 (mainParams.idealTarget (2 ^ 236 - 2 ^ 216) 86400)) :=
  ((getNextWorkRequiredSCC_exact_iff (by decide) rfl).mpr (by decide +kernel)).1

/-- After 482000 seconds the product has more than 256 bits, and the next target is far below the
last one. -/
theorem getNextWorkRequiredSCC_wraps :
    (targetOf { nHeight := 24, nBits := 0x1e0fffff, nTime := 482000 } <= mainParams.powLimit) /\
      mainParams.idealTarget (2 ^ 236 - 2 ^ 216) 482000 = mainParams.powLimit.toNat /\
      mainParams.getNextWorkRequiredSCC { nHeight := 24, nBits := 0x1e0fffff, nTime := 482000 }
        { nHeight := 23 } ≠ getCompact mainParams.powLimit := by
  decide +kernel

variable (params) in
def required (pindexLast pprev : CBlockIndex) : Uint256 :=
  (setCompact (params.getNextWorkRequiredSCC pindexLast pprev)).target

section

variable {target : Nat} {first second : Int}

/-- More time gives a larger target, unless the target is one and only the shorter time gives
zero. -/
theorem idealTarget_mono (intervals : 3 <= params.nInterval) (nonneg : 0 <= first)
    (ordered : first <= second)
    (regular : target = 1 -> first < params.nPowTargetSpacing -> second < params.nPowTargetSpacing) :
    params.idealTarget target first <= params.idealTarget target second := by
  rcases params.factors with ⟨_, _, _⟩
  have spaces := params.spacing_pos
  have more := Int.mul_le_mul_of_nonneg_right (Int.sub_le_sub_right intervals 1) (le_of_lt spaces)
  have factors : (params.multiplier first).toNat <= (params.multiplier second).toNat := by
    unfold multiplier
    omega
  have quotients : target * (params.multiplier first).toNat / params.divisor.toNat <=
    target * (params.multiplier second).toNat / params.divisor.toNat :=
    Nat.div_le_div_right (mul_le_mul_left target factors)
  have kept : target * (params.multiplier first).toNat / params.divisor.toNat = 0 ->
    target * (params.multiplier second).toNat / params.divisor.toNat = 0 := by
    intro zero
    rw [div_eq_zero_iff_lt (by omega)] at zero ⊢
    rcases lt_trichotomy target 1 with less | one | larger
    · rw [lt_one_iff.mp less, zero_mul]
      omega
    · have close := regular one
      rw [one, one_mul] at zero ⊢
      unfold multiplier at zero ⊢
      omega
    · have double := mul_le_mul_right (params.multiplier first).toNat larger
      unfold multiplier at zero double
      omega
  unfold idealTarget
  dsimp only
  split <;> split <;> omega

/-- With the target one, it is the limit for a short time, and a small number otherwise. -/
theorem idealTarget_one (wide : 2 ^ 32 <= params.powLimit.toNat) (nonneg : 0 <= first)
    (fits : params.multiplier first < 2 ^ 32) :
    (first < params.nPowTargetSpacing -> params.idealTarget 1 first = params.powLimit.toNat) /\
      (params.nPowTargetSpacing <= first -> params.idealTarget 1 first < 2 ^ 32) := by
  rcases params.factors with ⟨_, _, _⟩
  have spaces := params.spacing_pos
  have most := div_le_self (params.multiplier first).toNat params.divisor.toNat
  unfold idealTarget
  rw [one_mul]
  dsimp only
  constructor
  · intro short
    rw [if_pos]
    left
    rw [div_eq_zero_iff_lt (by omega)]
    unfold multiplier
    omega
  · intro long
    have positive : 0 < (params.multiplier first).toNat / params.divisor.toNat := by
      refine div_pos ?_ (by omega)
      unfold multiplier
      omega
    rw [if_neg (by omega)]
    omega

end

/-- **A longer time does not always give an easier target.**  A block at the time of the block
before counts less than an earlier one, and the smallest target is replaced by the limit for short
times. -/
theorem required_mono_iff {last prev : CBlockIndex} {time1 time2 : BitVec 32}
    (network : params = mainParams \/ params = devNetParams) (high : 24 <= last.nHeight)
    (ordered : time1.toNat <= time2.toNat)
    (fits : ∀ time, time = time1 \/ time = time2 -> params.factor { nTime := time } prev < 2 ^ 32) :
    (∀ (others : PowParams) (block : CBlockIndex), others.fPowNoRetargeting = true \/ block.nHeight < 24 ->
      others.required { block with nTime := time1 } prev = others.required { block with nTime := time2 } prev) /\
    ((∀ nBits, (setCompact nBits).target ≠ 1 -> (setCompact nBits).target <= params.powLimit ->
      (∀ time, time = time1 \/ time = time2 -> (setCompact nBits).target.toNat *
        (params.factor { nTime := time } prev).toNat < 2 ^ 256) ->
      params.required { last with nBits := nBits, nTime := time1 } prev <=
        params.required { last with nBits := nBits, nTime := time2 } prev) <->
      ¬(time1.toNat < prev.nTime.toNat /\ time2 = prev.nTime)) /\
    ∀ nBits, (setCompact nBits).target = 1 ->
      (params.required { last with nBits := nBits, nTime := time1 } prev <=
        params.required { last with nBits := nBits, nTime := time2 } prev <->
        ¬(time1.toNat < prev.nTime.toNat + params.nPowTargetSpacing /\
          prev.nTime.toNat + params.nPowTargetSpacing <= time2.toNat)) := by
  have facts : params.fPowNoRetargeting = false /\ 3 <= params.nInterval /\
    2 ^ 33 <= params.powLimit.toNat /\
    1 < params.nPowTargetSpacing /\ compacted (params.idealTarget 8388607 0) < compacted (params.idealTarget 8388607 1) := by
    rcases network with rfl | rfl <;> decide +kernel
  rcases facts with ⟨retargets, intervals, wide, _, _⟩
  have toNat_at : ∀ nBits time, time = time1 \/ time = time2 -> (setCompact nBits).target.toNat *
    (params.factor { nTime := time } prev).toNat < 2 ^ 256 ->
    (params.required { last with nBits := nBits, nTime := time } prev).toNat =
      compacted (params.idealTarget (setCompact nBits).target.toNat (actualSpacing { nTime := time } prev)) := by
    intro nBits time either room
    have tall : 24 <= ({ last with nBits := nBits, nTime := time } : CBlockIndex).nHeight := high
    rw [required, getNextWorkRequiredSCC_eq tall retargets, setCompact_getCompact, toNat_compacted]
    exact congrArg compacted (toNat_nextTarget (fits time either) room)
  have spacing : ∀ time : BitVec 32, actualSpacing { nTime := time } prev =
    if (time.toNat : Int) < prev.nTime.toNat then 1 else (time.toNat : Int) - prev.nTime.toNat := by
    intro time
    unfold actualSpacing
    dsimp only
    split <;> split <;> omega
  refine ⟨?_, ⟨?_, ?_⟩, ?_⟩
  · intro others block still
    unfold required getNextWorkRequiredSCC
    rcases still with off | low
    · rw [if_pos off, if_pos off]
    · simp [low]
  · rintro always ⟨_, same⟩
    have one : actualSpacing { nTime := time1 } prev = 1 := by
      rw [spacing, if_pos (by omega)]
    have zero : actualSpacing { nTime := time2 } prev = 0 := by
      rw [spacing, same]
      omega
    have target : (setCompact 0x037fffff).target.toNat = 8388607 := by decide +kernel
    have room : ∀ time, time = time1 \/ time = time2 -> (setCompact 0x037fffff).target.toNat *
      (params.factor { nTime := time } prev).toNat < 2 ^ 256 := by
      intro time either
      have less := fits time either
      rw [target]
      omega
    have easier := always 0x037fffff (by decide +kernel) (by rw [BitVec.le_def, target]; omega) room
    rw [BitVec.le_def, toNat_at _ time1 (.inl rfl) (room _ (.inl rfl)),
      toNat_at _ time2 (.inr rfl) (room _ (.inr rfl)), one, zero, target] at easier
    omega
  · intro regular nBits notOne _ room
    rw [BitVec.le_def, toNat_at _ time1 (.inl rfl) (room _ (.inl rfl)), toNat_at _ time2 (.inr rfl) (room _ (.inr rfl))]
    refine compacted_mono (idealTarget_mono intervals actualSpacing_nonneg ?_ ?_)
    · have apart : ¬(time1.toNat < prev.nTime.toNat /\ time2.toNat = prev.nTime.toNat) :=
        fun both => regular ⟨both.1, BitVec.eq_of_toNat_eq both.2⟩
      rw [spacing, spacing]
      split <;> split <;> omega
    · intro one
      exact absurd (BitVec.eq_of_toNat_eq one) notOne
  · intro nBits one
    have target : (setCompact nBits).target.toNat = 1 := by
      rw [one]
      rfl
    have room : ∀ time, time = time1 \/ time = time2 -> (setCompact nBits).target.toNat *
      (params.factor { nTime := time } prev).toNat < 2 ^ 256 := by
      intro time either
      have less := fits time either
      rw [target]
      omega
    have ideal1 := idealTarget_one (by omega) actualSpacing_nonneg (fits time1 (.inl rfl))
    have ideal2 := idealTarget_one (by omega) actualSpacing_nonneg (fits time2 (.inr rfl))
    rw [BitVec.le_def, toNat_at _ time1 (.inl rfl) (room _ (.inl rfl)),
      toNat_at _ time2 (.inr rfl) (room _ (.inr rfl)), target]
    have span1 := spacing time1
    have span2 := spacing time2
    constructor
    · rintro easier ⟨short, _⟩
      have limit : 2 ^ 32 <= compacted params.powLimit.toNat :=
        le_trans (by decide) (compacted_mono wide)
      have small := @compacted_le (params.idealTarget 1 (actualSpacing { nTime := time2 } prev))
      rw [ideal1.1 (by rw [span1]; split <;> omega)] at easier
      have less := ideal2.2 (by rw [span2]; split <;> omega)
      omega
    · intro apart
      by_cases short : (time2.toNat : Int) < prev.nTime.toNat + params.nPowTargetSpacing
      · rw [ideal1.1 (by rw [span1]; split <;> omega), ideal2.1 (by rw [span2]; split <;> omega)]
      refine compacted_mono (idealTarget_mono intervals actualSpacing_nonneg ?_ ?_)
      · rw [span1, span2]
        split <;> split <;> omega
      · rw [span1, span2]
        split <;> split <;> omega

theorem required_mono_iff_short :
    mainParams.required { nHeight := 24, nBits := 0x01010000, nTime := 100 } {} <=
      mainParams.required { nHeight := 24, nBits := 0x01010000, nTime := 110 } {} :=
  ((@required_mono_iff mainParams { nHeight := 24 } {} 100 110 (.inl rfl) (by decide) (by decide)
    (by rintro time (rfl | rfl) <;> decide)).2.2 0x01010000 (by decide +kernel)).mpr (by decide)

/-- A block at the time of the block before, and one a second earlier; then the target one. -/
theorem required_not_mono :
    mainParams.required { nHeight := 24, nBits := 0x037fffff, nTime := 100 } { nTime := 100 } <
        mainParams.required { nHeight := 24, nBits := 0x037fffff, nTime := 99 } { nTime := 100 } /\
      mainParams.required { nHeight := 24, nBits := 0x01010000, nTime := 120 } {} <
        mainParams.required { nHeight := 24, nBits := 0x01010000, nTime := 119 } {} := by
  decide +kernel

/-- `bnPastTargetAvg` after some blocks, the last block of the chain first.  The target of that
block counts twice. -/
def pastTargetAvg (past : List CBlockIndex) : Uint256 :=
  (past.zipIdx 1).foldl (fun avg item =>
    if item.2 = 1 then targetOf item.1
    else (avg * BitVec.ofNat 256 item.2 + targetOf item.1) / BitVec.ofNat 256 (item.2 + 1)) 0

variable (params) in
/-- `nActualTimespan` of `DarkGravityWave`, which is kept between a third of the time that 24 blocks
should take and three times that time. -/
def actualTimespan (pindexLast pindex : CBlockIndex) : Int :=
  let nActualTimespan : Int := pindexLast.nTime.toNat - pindex.nTime.toNat
  let nTargetTimespan := 24 * params.nPowTargetSpacing
  let nActualTimespan :=
    if nActualTimespan < nTargetTimespan / 3 then nTargetTimespan / 3 else nActualTimespan
  if nTargetTimespan * 3 < nActualTimespan then nTargetTimespan * 3 else nActualTimespan

variable (params) in
/-- `bnNew` of `DarkGravityWave` in the end. -/
def retarget (avg : Uint256) (nActualTimespan : Int) : Uint256 :=
  let bnNew := scale avg nActualTimespan (24 * params.nPowTargetSpacing)
  if params.powLimit < bnNew then params.powLimit else bnNew

variable (params) in
/-- `DarkGravityWave` on the chain from its last block down to the genesis block.  A chain of no
more than 24 blocks gets the limit. -/
def darkGravityWave (chain : List CBlockIndex) : BitVec 32 :=
  if chain.length < 24 + 1 then getCompact params.powLimit
  else
    getCompact (params.retarget (pastTargetAvg (chain.take 24))
      (params.actualTimespan (chain.headD {}) ((chain.take 24).getLastD {})))

variable {least most : Nat} {past : List CBlockIndex} {pindex : CBlockIndex}

theorem pastTargetAvg_append : pastTargetAvg (past ++ [pindex]) = if past = [] then
    targetOf pindex else
    (pastTargetAvg past * BitVec.ofNat 256 (past.length + 1) + targetOf pindex) /
      BitVec.ofNat 256 (past.length + 2) := by
  rw [pastTargetAvg, zipIdx_append, foldl_append]
  cases past with
  | nil => rfl
  | cons _ rest =>
    have count : 1 + (rest.length + 1) = rest.length + 1 + 1 := by omega
    simp [pastTargetAvg, count]

theorem toNat_pastTargetAvg_append (some_ : past ≠ []) (short : past.length < 24)
    (room : most < 2 ^ 236) (avg : (pastTargetAvg past).toNat <= most)
    (bound : (targetOf pindex).toNat <= most) :
    (pastTargetAvg past).toNat * (past.length + 1) + (targetOf pindex).toNat < 2 ^ 256 /\
      (pastTargetAvg (past ++ [pindex])).toNat =
        ((pastTargetAvg past).toNat * (past.length + 1) + (targetOf pindex).toNat) / (past.length + 2) := by
  have product : (pastTargetAvg past).toNat * (past.length + 1) <= most * 24 :=
    Nat.mul_le_mul avg short
  have fits : (pastTargetAvg past).toNat * (past.length + 1) + (targetOf pindex).toNat <
    2 ^ 256 := by omega
  refine ⟨fits, ?_⟩
  rw [pastTargetAvg_append, if_neg some_, BitVec.toNat_udiv, BitVec.toNat_add, BitVec.toNat_mul,
    BitVec.toNat_ofNat, BitVec.toNat_ofNat, mod_eq_of_lt (show past.length + 1 < 2 ^ 256 by omega),
    mod_eq_of_lt (show past.length + 2 < 2 ^ 256 by omega), mod_eq_of_lt (show
      (pastTargetAvg past).toNat * (past.length + 1) < 2 ^ 256 by omega), mod_eq_of_lt fits]

theorem pastTargetAvg_bounds (room : most < 2 ^ 236) (past : List CBlockIndex) :
    past ≠ [] -> past.length <= 24 ->
    (∀ pindex ∈ past, least <= (targetOf pindex).toNat /\ (targetOf pindex).toNat <= most) ->
    least <= (pastTargetAvg past).toNat /\ (pastTargetAvg past).toNat <= most := by
  induction past using List.reverseRecOn with
  | nil => exact fun empty => absurd rfl empty
  | append_singleton past pindex ih =>
    intro _ short bounds
    rw [length_append, length_singleton] at short
    have last := bounds pindex (by simp)
    by_cases empty : past = []
    · rw [pastTargetAvg_append, if_pos empty]
      exact last
    rcases ih empty (by omega) fun other member => bounds other (by simp [member]) with ⟨low, high⟩
    rw [(toNat_pastTargetAvg_append empty short room high last.2).2]
    have lower := mul_le_mul_right (past.length + 1) low
    have upper := mul_le_mul_right (past.length + 1) high
    constructor
    · rw [le_div_iff_mul_le (by omega), Nat.mul_succ]
      omega
    · refine Nat.div_le_of_le_mul ?_
      rw [mul_comm (past.length + 2), Nat.mul_succ most]
      omega

theorem actualTimespan_bounds :
    8 * params.nPowTargetSpacing <= params.actualTimespan pindexLast pindex /\
    params.actualTimespan pindexLast pindex <= 72 * params.nPowTargetSpacing := by
  have spaces := params.spacing_pos
  unfold actualTimespan
  dsimp only
  split <;> split <;> omega

theorem retarget_bounds {avg : Uint256} {nActualTimespan : Int}
    (room : params.powLimit.toNat < 2 ^ 236) (limit : avg.toNat <= params.powLimit.toNat)
    (timespan : 8 * params.nPowTargetSpacing <= nActualTimespan /\
      nActualTimespan <= 72 * params.nPowTargetSpacing) :
    avg.toNat * nActualTimespan.toNat < 2 ^ 256 /\ avg.toNat / 3 <= (params.retarget avg nActualTimespan).toNat /\
      (params.retarget avg nActualTimespan).toNat <= min params.powLimit.toNat (3 * avg.toNat) := by
  have spaces := params.spacing_pos
  have hour := params.spacing_le
  have product : avg.toNat * nActualTimespan.toNat < 2 ^ 256 := by
    have most := Nat.mul_le_mul limit (show nActualTimespan.toNat <= 2 ^ 20 by omega)
    omega
  have scaled := @toNat_scale avg nActualTimespan (24 * params.nPowTargetSpacing) (by omega)
    (by omega) (by omega) (by omega) product
  obtain ⟨spacing, _⟩ := eq_ofNat_of_zero_le (le_of_lt spaces)
  rw [show (24 * params.nPowTargetSpacing).toNat = 3 * (8 * spacing) by omega] at scaled
  have low :
    avg.toNat / 3 <= (scale avg nActualTimespan (24 * params.nPowTargetSpacing)).toNat := by
    rw [scaled, <- Nat.mul_div_mul_right avg.toNat 3 (show 0 < 8 * spacing by omega)]
    exact Nat.div_le_div_right (mul_le_mul_left _ (by omega))
  have high : (scale avg nActualTimespan (24 * params.nPowTargetSpacing)).toNat <=
    3 * avg.toNat := by
    rw [scaled]
    refine Nat.div_le_of_le_mul ?_
    have most := mul_le_mul_left avg.toNat (show nActualTimespan.toNat <= 72 * spacing by omega)
    rwa [show 3 * (8 * spacing) * (3 * avg.toNat) = avg.toNat * (72 * spacing) by ring]
  refine ⟨product, ?_⟩
  unfold retarget
  dsimp only
  simp only [apply_ite BitVec.toNat, BitVec.lt_def]
  split <;> omega

/-- **Dark gravity wave stays between the targets.**  No value wraps, the running value lies between
the targets so far, and the result between a third and three times the last. -/
theorem darkGravityWave_bounded {chain : List CBlockIndex} (long : 25 <= chain.length)
    (room : params.powLimit.toNat < 2 ^ 236)
    (inRange : ∀ pindex ∈ chain.take 24, 1 <= (targetOf pindex).toNat /\
      (targetOf pindex).toNat <= params.powLimit.toNat) :
    (∀ blocks least most, 1 <= blocks -> blocks <= 24 ->
      (∀ pindex ∈ chain.take blocks, least <= (targetOf pindex).toNat /\ (targetOf pindex).toNat <= most) ->
      least <= (pastTargetAvg (chain.take blocks)).toNat /\ (pastTargetAvg (chain.take blocks)).toNat <= most) /\
      (∀ blocks pindex, 1 <= blocks -> blocks < 24 -> chain[blocks]? = some pindex ->
        (pastTargetAvg (chain.take blocks)).toNat * (blocks + 1) + (targetOf pindex).toNat < 2 ^ 256) /\
      let nActualTimespan := params.actualTimespan (chain.headD {}) ((chain.take 24).getLastD {})
      0 <= nActualTimespan /\ nActualTimespan < 2 ^ 32 /\
        params.darkGravityWave chain = getCompact (params.retarget (pastTargetAvg (chain.take 24)) nActualTimespan) /\
        (pastTargetAvg (chain.take 24)).toNat * nActualTimespan.toNat < 2 ^ 256 /\
        (pastTargetAvg (chain.take 24)).toNat / 3 <=
          (params.retarget (pastTargetAvg (chain.take 24)) nActualTimespan).toNat /\
        (params.retarget (pastTargetAvg (chain.take 24)) nActualTimespan).toNat <=
          min params.powLimit.toNat (3 * (pastTargetAvg (chain.take 24)).toNat) := by
  have bounds : ∀ blocks least most, 1 <= blocks -> blocks <= 24 ->
    (∀ pindex ∈ chain.take blocks, least <= (targetOf pindex).toNat /\ (targetOf pindex).toNat <= most) ->
    least <= (pastTargetAvg (chain.take blocks)).toNat /\
      (pastTargetAvg (chain.take blocks)).toNat <= min most params.powLimit.toNat := by
    intro blocks least most some_ short each
    refine pastTargetAvg_bounds (lt_of_le_of_lt (min_le_right _ _) room) _ ?_ ?_ ?_
    · intro empty
      have length := congrArg List.length empty
      rw [length_take, length_nil] at length
      omega
    · rw [length_take]
      omega
    · intro pindex member
      have within := (inRange pindex (take_subset_take_left chain short member)).2
      exact ⟨(each pindex member).1, Nat.le_min.mpr ⟨(each pindex member).2, within⟩⟩
  have limited : ∀ blocks, 1 <= blocks -> blocks <= 24 ->
    (pastTargetAvg (chain.take blocks)).toNat <= params.powLimit.toNat := by
    intro blocks some_ short
    have bounded := bounds blocks 0 (2 ^ 256) some_ short fun pindex _ =>
      ⟨zero_le _, le_of_lt (targetOf pindex).isLt⟩
    exact le_trans bounded.2 (min_le_right _ _)
  refine ⟨?_, ?_, ?_⟩
  · intro blocks least most some_ short each
    rcases bounds blocks least most some_ short each with ⟨low, high⟩
    exact ⟨low, le_trans high (min_le_left _ _)⟩
  · intro blocks pindex some_ short found
    have last := inRange pindex (mem_iff_getElem?.mpr ⟨blocks, by rw [List.getElem?_take_of_lt short, found]⟩)
    have product := Nat.mul_le_mul (limited blocks some_ (le_of_lt short)) (show blocks + 1 <= 24 from short)
    omega
  · have timespan := @actualTimespan_bounds params (chain.headD {}) ((chain.take 24).getLastD {})
    have spaces := params.spacing_pos
    have hour := params.spacing_le
    exact ⟨by omega, by omega, if_neg (by omega), retarget_bounds room (limited 24 (by decide) le_rfl) timespan⟩

/-- Blocks that are two minutes apart, with one of two targets. -/
def sampleChain : List CBlockIndex :=
  (List.range 25).map fun depth =>
    { nHeight := 1000 - depth, nTime := BitVec.ofNat 32 (1600000000 - 120 * depth)
      nBits := if depth % 2 = 0 then 0x1e0fffff else 0x1e07ffff }

theorem darkGravityWave_bounded_main :
    let avg := (pastTargetAvg (sampleChain.take 24)).toNat
    let target := (mainParams.retarget (pastTargetAvg (sampleChain.take 24))
      (mainParams.actualTimespan (sampleChain.headD {}) ((sampleChain.take 24).getLastD {}))).toNat
    avg / 3 <= target /\ target <= min mainParams.powLimit.toNat (3 * avg) :=
  (@darkGravityWave_bounded mainParams sampleChain (by decide) (by decide +kernel)
    (by decide +kernel)).2.2.2.2.2.2

end PowParams
end StakeCubeCoin.Validation
