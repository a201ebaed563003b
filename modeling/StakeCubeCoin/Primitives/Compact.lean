import Mathlib.Data.Nat.Bitwise
import StakeCubeCoin.Primitives.Pow

namespace StakeCubeCoin.Primitives

open Nat

/-!
# The compact form of a target

`arith_uint256::GetCompact` keeps the three highest bytes of a number, with one bit less so that
the sign stays free, and the number of its bytes.  Decoding gives the number without the bytes
that were cut off.
-/

variable (bn : Uint256)

/-- `base_uint::bits`: the position of the highest bit, counted from one. -/
def bits : Nat :=
  if bn = 0 then 0 else bn.toNat.log2 + 1

/-- `arith_uint256::GetCompact` without a sign. -/
def getCompact : BitVec 32 :=
  let nSize := (bits bn + 7) / 8
  let nCompact : BitVec 32 :=
    if nSize <= 3 then (bn.setWidth 64 <<< (8 * (3 - nSize))).setWidth 32
    else ((bn >>> (8 * (nSize - 3))).setWidth 64).setWidth 32
  if nCompact &&& 0x00800000 ≠ 0 then (nCompact >>> 8) ||| (BitVec.ofNat 32 (nSize + 1) <<< 24)
  else nCompact ||| (BitVec.ofNat 32 nSize <<< 24)

/-- The word and the size that `GetCompact` joins, as its two assertions see them. -/
def compactParts : BitVec 32 × Nat :=
  let nSize := (bits bn + 7) / 8
  let nCompact : BitVec 32 :=
    if nSize <= 3 then (bn.setWidth 64 <<< (8 * (3 - nSize))).setWidth 32
    else ((bn >>> (8 * (nSize - 3))).setWidth 64).setWidth 32
  if nCompact &&& 0x00800000 ≠ 0 then (nCompact >>> 8, nSize + 1) else (nCompact, nSize)

theorem getCompact_eq :
    getCompact bn = (compactParts bn).1 ||| (BitVec.ofNat 32 (compactParts bn).2 <<< 24) := by
  symm
  exact apply_ite (fun parts : BitVec 32 × Nat => parts.1 ||| (BitVec.ofNat 32 parts.2 <<< 24)) _ _ _

variable (number : Nat)

/-- The number of bytes of the compact form, one more than needed if the highest bit is that of
the sign. -/
def compactSize : Nat :=
  (number.log2 + 1) / 8 + 1

def compactWord : Nat :=
  number * 2 ^ 24 / 2 ^ (8 * compactSize number)

def compacted : Nat :=
  compactWord number * 2 ^ (8 * compactSize number) / 2 ^ 24

section

variable {number : Nat}

theorem compactWord_lt : compactWord number < 2 ^ 23 := by
  have less : number < 2 ^ (number.log2 + 1) := lt_log2_self
  have fits : 2 ^ (number.log2 + 1) * 2 ^ 24 <= 2 ^ (8 * compactSize number) * 2 ^ 23 := by
    rw [<- pow_add, <- pow_add]
    exact Nat.pow_le_pow_right Nat.two_pos (by unfold compactSize; omega)
  rw [compactWord, Nat.div_lt_iff_lt_mul (Nat.two_pow_pos _), mul_comm (2 ^ 23)]
  exact lt_of_lt_of_le (Nat.mul_lt_mul_of_pos_right less (Nat.two_pow_pos 24)) fits

theorem compacted_eq (number : Nat) : compacted number =
    number / 2 ^ (8 * (compactSize number - 3)) * 2 ^ (8 * (compactSize number - 3)) := by
  rw [compacted, compactWord]
  by_cases small : 8 * compactSize number <= 24
  · obtain ⟨rest, shift⟩ := Nat.exists_eq_add_of_le small
    rw [shift, pow_add, mul_left_comm, Nat.mul_div_cancel_left _ (Nat.two_pow_pos _), mul_right_comm,
      mul_assoc number, Nat.mul_div_cancel _ (Nat.mul_pos (Nat.two_pow_pos _) (Nat.two_pow_pos rest)),
      show 8 * (compactSize number - 3) = 0 by omega, pow_zero, Nat.div_one, mul_one]
  · obtain ⟨rest, shift⟩ := Nat.exists_eq_add_of_le (Nat.le_of_not_le small)
    rw [shift, pow_add, <- mul_assoc, mul_right_comm, Nat.mul_div_cancel _ (Nat.two_pow_pos 24),
      mul_comm (2 ^ 24), Nat.mul_div_mul_right _ _ (Nat.two_pow_pos 24), show 8 * (compactSize number - 3) = rest by omega]

theorem compacted_le : compacted number <= number := by
  rw [compacted_eq]
  exact div_mul_le_self _ _

theorem two_pow_log2_le_compacted (positive : number ≠ 0) :
    2 ^ number.log2 <= compacted number := by
  have least : 2 ^ (number.log2 + 24 - 8 * compactSize number) <= compactWord number := by
    refine (Nat.le_div_iff_mul_le (Nat.two_pow_pos _)).mpr ?_
    rw [<- pow_add, Nat.sub_add_cancel (by unfold compactSize; omega), pow_add]
    exact mul_le_mul_right _ (log2_self_le positive)
  refine (Nat.le_div_iff_mul_le (Nat.two_pow_pos _)).mpr ?_
  refine le_trans ?_ (mul_le_mul_right _ least)
  rw [<- pow_add, <- pow_add, Nat.sub_add_cancel (by unfold compactSize; omega)]

theorem compacted_mono {first second : Nat} (le : first <= second) :
    compacted first <= compacted second := by
  by_cases zero : first = 0
  · rw [zero]
    exact zero_le _
  have positive : second ≠ 0 := by omega
  by_cases same : first.log2 = second.log2
  · have size : compactSize first = compactSize second := by rw [compactSize, same, compactSize]
    rw [compacted, compacted, compactWord, compactWord, size]
    exact Nat.div_le_div_right (mul_le_mul_right _ (Nat.div_le_div_right (mul_le_mul_right _ le)))
  have logs : first.log2 <= second.log2 := (le_log2 positive).mpr (le_trans (log2_self_le zero) le)
  calc compacted first <= first := compacted_le
    _ <= 2 ^ (first.log2 + 1) := le_of_lt lt_log2_self
    _ <= 2 ^ second.log2 := Nat.pow_le_pow_right Nat.two_pos (by omega)
    _ <= compacted second := two_pow_log2_le_compacted positive

theorem log2_compacted (positive : number ≠ 0) : (compacted number).log2 = number.log2 := by
  have kept := two_pow_log2_le_compacted positive
  have nonzero : compacted number ≠ 0 := ne_of_gt (lt_of_lt_of_le (Nat.two_pow_pos _) kept)
  exact (log2_eq_iff nonzero).mpr ⟨kept, lt_of_le_of_lt compacted_le lt_log2_self⟩

theorem compactWord_compacted (positive : number ≠ 0) :
    compactWord (compacted number) = compactWord number := by
  have size : compactSize (compacted number) = compactSize number := by
    rw [compactSize, log2_compacted positive, compactSize]
  rw [compactWord, size]
  by_cases small : 8 * compactSize number <= 24
  · -- Nothing is cut off.
    rw [compacted_eq, show 8 * (compactSize number - 3) = 0 by omega, pow_zero, Nat.div_one, mul_one, compactWord]
  · obtain ⟨rest, shift⟩ := Nat.exists_eq_add_of_le (Nat.le_of_not_le small)
    rw [compacted, shift, pow_add, <- mul_assoc, mul_right_comm, Nat.mul_div_cancel _ (Nat.two_pow_pos 24),
      mul_assoc, mul_comm (2 ^ rest), Nat.mul_div_cancel _ (Nat.mul_pos (Nat.two_pow_pos _) (Nat.two_pow_pos rest))]

theorem compacted_shifted {word shift : Nat} (small : word < 2 ^ 23) :
    compacted (word * 2 ^ (8 * shift)) = word * 2 ^ (8 * shift) := by
  have size : compactSize (word * 2 ^ (8 * shift)) - 3 <= shift := by
    by_cases zero : word * 2 ^ (8 * shift) = 0
    · rw [zero]
      exact zero_le _
    have less : (word * 2 ^ (8 * shift)).log2 < 23 + 8 * shift := by
      rw [log2_lt zero, pow_add]
      exact Nat.mul_lt_mul_of_pos_right small (Nat.two_pow_pos _)
    unfold compactSize
    omega
  rw [compacted_eq]
  exact Nat.div_mul_cancel (Nat.dvd_mul_left_of_dvd (Nat.pow_dvd_pow 2 (mul_le_mul_left 8 size)) word)

end

theorem and_sign_eq_zero_iff (word : BitVec 32) :
    word &&& 0x00800000 = 0 <-> word.toNat / 2 ^ 23 % 2 = 0 := by
  have sign : (0x00800000 : BitVec 32).toNat = 2 ^ 23 := rfl
  rw [<- BitVec.toNat_inj, BitVec.toNat_and, sign, and_two_pow, testBit_eq_decide_div_mod_eq]
  simp

theorem toNat_or_size {word : BitVec 32} {nSize : Nat} (small : word.toNat < 2 ^ 24)
    (fits : nSize < 2 ^ 8) :
    (word ||| (BitVec.ofNat 32 nSize <<< 24)).toNat = nSize * 2 ^ 24 + word.toNat := by
  rw [BitVec.toNat_or, Nat.or_comm, BitVec.toNat_shiftLeft, BitVec.toNat_ofNat,
    Nat.mod_eq_of_lt (by omega),
    shiftLeft_eq, Nat.mod_eq_of_lt (by omega), <- shiftLeft_eq, <- shiftLeft_add_eq_or_of_lt small,
    shiftLeft_eq]

theorem toNat_highest {bn : Uint256} {nSize : Nat} (fits : bn.toNat < 2 ^ (8 * nSize)) :
    (if nSize <= 3 then (bn.setWidth 64 <<< (8 * (3 - nSize))).setWidth 32
      else ((bn >>> (8 * (nSize - 3))).setWidth 64).setWidth 32 : BitVec 32).toNat =
      bn.toNat * 2 ^ 24 / 2 ^ (8 * nSize) := by
  split
  · next _ =>
    obtain ⟨rest, shift⟩ := Nat.exists_eq_add_of_le (by omega : 8 * nSize <= 24)
    have less : bn.toNat * 2 ^ rest < 2 ^ 24 := by
      rw [shift, pow_add]
      exact Nat.mul_lt_mul_of_pos_right fits (Nat.two_pow_pos rest)
    have small : bn.toNat < 2 ^ 24 := lt_of_le_of_lt (Nat.le_mul_of_pos_right _ (Nat.two_pow_pos rest)) less
    rw [BitVec.toNat_setWidth, BitVec.toNat_shiftLeft, BitVec.toNat_setWidth, shiftLeft_eq,
      show 8 * (3 - nSize) = rest by omega, Nat.mod_eq_of_lt (by omega : bn.toNat < 2 ^ 64),
      Nat.mod_eq_of_lt (by omega : bn.toNat * 2 ^ rest < 2 ^ 64), Nat.mod_eq_of_lt (by omega)]
    rw [shift, pow_add, mul_left_comm, Nat.mul_div_cancel_left _ (Nat.two_pow_pos _)]
  · next _ =>
    obtain ⟨rest, shift⟩ := Nat.exists_eq_add_of_le (by omega : 24 <= 8 * nSize)
    rw [shift, pow_add] at fits ⊢
    have less : bn.toNat / 2 ^ rest < 2 ^ 24 := (Nat.div_lt_iff_lt_mul (Nat.two_pow_pos rest)).mpr fits
    rw [BitVec.toNat_setWidth, BitVec.toNat_setWidth, BitVec.toNat_ushiftRight, Nat.shiftRight_eq_div_pow,
      show 8 * (nSize - 3) = rest by omega, Nat.mod_eq_of_lt (by omega : bn.toNat / 2 ^ rest < 2 ^ 64),
      Nat.mod_eq_of_lt (by omega), mul_comm (2 ^ 24), Nat.mul_div_mul_right _ _ (Nat.two_pow_pos 24)]

section

variable {bn : Uint256}

theorem bits_le : bits bn <= 256 := by
  unfold bits
  split
  · decide
  · next positive =>
    exact (log2_lt fun zero => positive (BitVec.eq_of_toNat_eq zero)).mpr bn.isLt

theorem toNat_lt_two_pow_bits : bn.toNat < 2 ^ bits bn := by
  unfold bits
  split
  · next zero =>
    rw [zero]
    decide
  · exact lt_log2_self

theorem bits_pos (positive : bn ≠ 0) : 0 < bits bn := by
  rw [bits, if_neg positive]
  exact succ_pos _

theorem two_pow_bits_le (positive : bn ≠ 0) : 2 ^ (bits bn - 1) <= bn.toNat := by
  rw [bits, if_neg positive]
  exact log2_self_le fun zero => positive (BitVec.eq_of_toNat_eq zero)

end

theorem compactParts_spec {bn : Uint256} (positive : bn ≠ 0) :
    (compactParts bn).1.toNat = compactWord bn.toNat /\
    (compactParts bn).2 = compactSize bn.toNat /\ compactSize bn.toNat = bits bn / 8 + 1 := by
  have fits : bn.toNat < 2 ^ (8 * ((bits bn + 7) / 8)) :=
    lt_of_lt_of_le toNat_lt_two_pow_bits (Nat.pow_le_pow_right Nat.two_pos (by omega))
  have highest := toNat_highest fits
  have small : bn.toNat * 2 ^ 24 / 2 ^ (8 * ((bits bn + 7) / 8)) < 2 ^ 24 := by
    rw [Nat.div_lt_iff_lt_mul (Nat.two_pow_pos _), mul_comm (2 ^ 24)]
    exact Nat.mul_lt_mul_of_pos_right fits (Nat.two_pow_pos 24)
  have size : compactSize bn.toNat = bits bn / 8 + 1 := by rw [bits, if_neg positive, compactSize]
  have least := two_pow_bits_le positive
  have some := bits_pos positive
  have most := @bits_le bn
  have word : compactWord bn.toNat =
    bn.toNat * 2 ^ 24 / 2 ^ (8 * (bits bn / 8 + 1)) := by rw [compactWord, size]
  have below := @compactWord_lt bn.toNat
  refine and_assoc.mp ⟨?_, size⟩
  unfold compactParts
  dsimp only
  generalize (if (bits bn + 7) / 8 <= 3 then (bn.setWidth 64 <<< (8 * (3 - (bits bn + 7) / 8))).setWidth 32
    else ((bn >>> (8 * ((bits bn + 7) / 8 - 3))).setWidth 64).setWidth 32 : BitVec 32) = nCompact at highest ⊢
  rw [<- highest] at small
  by_cases whole : bits bn % 8 = 0
  · -- The highest bit would be that of the sign.
    have same : (bits bn + 7) / 8 = bits bn / 8 := by omega
    rw [same] at highest ⊢
    have set : 2 ^ 23 <= nCompact.toNat := by
      rw [highest, Nat.le_div_iff_mul_le (Nat.two_pow_pos _), <- pow_add]
      refine le_trans ?_ (mul_le_mul_right _ least)
      rw [<- pow_add]
      exact Nat.pow_le_pow_right Nat.two_pos (by omega)
    have shifted : (nCompact >>> 8).toNat = compactWord bn.toNat := by
      rw [BitVec.toNat_ushiftRight, Nat.shiftRight_eq_div_pow, highest, Nat.div_div_eq_div_mul, <- pow_add, word]
      congr 2
    rw [if_pos (by rw [Ne, and_sign_eq_zero_iff]; omega)]
    exact ⟨shifted, size.symm⟩
  · have same : (bits bn + 7) / 8 = bits bn / 8 + 1 := by omega
    rw [same, <- word] at highest
    rw [if_neg (by rw [Ne, not_not, and_sign_eq_zero_iff]; omega), same]
    exact ⟨highest, size.symm⟩

theorem toNat_getCompact {bn : Uint256} (positive : bn ≠ 0) :
    (getCompact bn).toNat = compactSize bn.toNat * 2 ^ 24 + compactWord bn.toNat := by
  obtain ⟨word, nSize, _⟩ := compactParts_spec positive
  have most := @bits_le bn
  have below := @compactWord_lt bn.toNat
  rw [getCompact_eq, toNat_or_size (by omega) (by omega), word, nSize]

variable (nCompact : BitVec 32)

theorem toNat_mantissa : (nCompact &&& 0x007fffff).toNat = nCompact.toNat % 2 ^ 23 := by
  have mask : (0x007fffff : BitVec 32).toNat = 2 ^ 23 - 1 := rfl
  rw [BitVec.toNat_and, mask, and_two_pow_sub_one_eq_mod]

theorem toNat_size : (nCompact >>> 24).toNat = nCompact.toNat / 2 ^ 24 := by
  rw [BitVec.toNat_ushiftRight, Nat.shiftRight_eq_div_pow]

theorem target_setCompact : (setCompact nCompact).target =
    BitVec.ofNat 256 (nCompact.toNat % 2 ^ 23 * 2 ^ (8 * (nCompact.toNat / 2 ^ 24)) / 2 ^ 24) := by
  have mantissa := toNat_mantissa nCompact
  unfold setCompact
  simp only [toNat_size]
  generalize nCompact &&& 0x007fffff = low at mantissa ⊢
  generalize nCompact.toNat / 2 ^ 24 = nSize
  apply BitVec.eq_of_toNat_eq
  by_cases few : nSize <= 3
  · obtain ⟨rest, shift⟩ := Nat.exists_eq_add_of_le (by omega : 8 * nSize <= 24)
    rw [if_pos few, if_pos few, BitVec.toNat_setWidth, BitVec.toNat_ushiftRight, Nat.shiftRight_eq_div_pow, mantissa,
      BitVec.toNat_ofNat, show 8 * (3 - nSize) = rest by omega, shift, pow_add, mul_comm (_ % _),
      Nat.mul_div_mul_left _ _ (Nat.two_pow_pos _)]
  · obtain ⟨rest, shift⟩ := Nat.exists_eq_add_of_le (by omega : 24 <= 8 * nSize)
    rw [if_neg few, if_neg few, BitVec.toNat_shiftLeft, BitVec.toNat_setWidth, mantissa, BitVec.toNat_ofNat,
      shiftLeft_eq, show 8 * (nSize - 3) = rest by omega, shift, pow_add, mul_left_comm,
      Nat.mul_div_cancel_left _ (Nat.two_pow_pos _), Nat.mod_eq_of_lt (by omega : nCompact.toNat % 2 ^ 23 < 2 ^ 256)]

theorem setCompact_of_toNat {nCompact : BitVec 32} {nSize word : Nat}
    (shape : nCompact.toNat = nSize * 2 ^ 24 + word) (small : word < 2 ^ 23)
    (fits : nSize <= 32 \/ nSize = 33 /\ word < 2 ^ 16) : setCompact nCompact =
      { target := BitVec.ofNat 256 (word * 2 ^ (8 * nSize) / 2 ^ 24), fNegative := false, fOverflow := false } := by
  have sizes : nCompact.toNat / 2 ^ 24 = nSize := by omega
  have mantissa : nCompact.toNat % 2 ^ 23 = word := by omega
  have positive : nCompact &&& 0x00800000 = 0 := by
    rw [and_sign_eq_zero_iff]
    omega
  have target := target_setCompact nCompact
  rw [sizes, mantissa] at target
  rw [<- target]
  rw [<- toNat_mantissa] at mantissa
  unfold setCompact
  simp only [toNat_size, sizes, positive]
  generalize nCompact &&& 0x007fffff = low at mantissa ⊢
  split <;> simp [BitVec.lt_def, mantissa] <;> omega

/-- **A compact form is decoded to what is left of the number.**  Neither of the two flags is set,
also where the three highest bytes would have a sign bit. -/
theorem setCompact_getCompact : setCompact (getCompact bn) =
      { target := BitVec.ofNat 256 (compacted bn.toNat), fNegative := false, fOverflow := false } := by
  by_cases positive : bn = 0
  · rw [positive]
    decide
  have nonzero : bn.toNat ≠ 0 := fun zero => positive (BitVec.eq_of_toNat_eq zero)
  have most : bn.toNat.log2 < 256 := (log2_lt nonzero).mpr bn.isLt
  refine setCompact_of_toNat (toNat_getCompact positive) compactWord_lt ?_
  by_cases large : compactSize bn.toNat <= 32
  · exact .inl large
  have size : compactSize bn.toNat = 33 := by
    unfold compactSize at large ⊢
    omega
  refine .inr ⟨size, ?_⟩
  rw [compactWord, size]
  omega

theorem toNat_compacted : (BitVec.ofNat 256 (compacted bn.toNat)).toNat = compacted bn.toNat := by
  rw [BitVec.toNat_ofNat]
  exact Nat.mod_eq_of_lt (lt_of_le_of_lt compacted_le bn.isLt)

theorem getCompact_compacted :
    getCompact (BitVec.ofNat 256 (compacted bn.toNat)) = getCompact bn := by
  by_cases positive : bn = 0
  · rw [positive]
    decide
  have nonzero : bn.toNat ≠ 0 := fun zero => positive (BitVec.eq_of_toNat_eq zero)
  have kept := two_pow_log2_le_compacted nonzero
  have left : BitVec.ofNat 256 (compacted bn.toNat) ≠ 0 := by
    intro zero
    have none := toNat_compacted bn
    rw [zero] at none
    rw [<- none] at kept
    simp at kept
  apply BitVec.eq_of_toNat_eq
  rw [toNat_getCompact left, toNat_getCompact positive, toNat_compacted,
    compactWord_compacted nonzero, compactSize, log2_compacted nonzero, compactSize]

/-- A compact form that does not overflow says a mantissa and how many zero bytes follow it. -/
theorem exists_toNat_target {nCompact : BitVec 32}
    (clear : (setCompact nCompact).fOverflow = false) :
    ∃ word, ∃ shift, word < 2 ^ 23 /\ (setCompact nCompact).target.toNat = word * 2 ^ (8 * shift) := by
  have mantissa := toNat_mantissa nCompact
  unfold setCompact at clear ⊢
  simp only [toNat_size] at clear ⊢
  generalize nCompact &&& 0x007fffff = low at mantissa clear ⊢
  generalize nCompact.toNat / 2 ^ 24 = nSize at clear ⊢
  by_cases few : nSize <= 3
  · refine ⟨(low >>> (8 * (3 - nSize))).toNat, 0, ?_, ?_⟩
    · rw [BitVec.toNat_ushiftRight, Nat.shiftRight_eq_div_pow]
      exact lt_of_le_of_lt (div_le_self _ _) (by omega)
    · rw [if_pos few, if_pos few, BitVec.toNat_setWidth_of_le (by decide), mul_zero, pow_zero, mul_one]
  · refine ⟨low.toNat, nSize - 3, by omega, ?_⟩
    have fits : low.toNat * 2 ^ (8 * (nSize - 3)) < 2 ^ 256 := by
      by_cases zero : low.toNat = 0
      · rw [zero, zero_mul]
        exact Nat.two_pow_pos _
      have less (room : Nat) (small : low.toNat < 2 ^ room) (most : room + 8 * (nSize - 3) <= 256) :
          low.toNat * 2 ^ (8 * (nSize - 3)) < 2 ^ 256 := by
        refine lt_of_lt_of_le (Nat.mul_lt_mul_of_pos_right small (Nat.two_pow_pos _)) ?_
        rw [<- pow_add]
        exact Nat.pow_le_pow_right Nat.two_pos most
      simp [few, BitVec.lt_def, <- BitVec.toNat_inj, zero] at clear
      rcases (by omega : nSize <= 32 \/ nSize = 33 \/ nSize = 34) with size | size | size
      · exact less 23 (by omega) (by omega)
      · exact less 16 (by omega) (by omega)
      · exact less 8 (by omega) (by omega)
    rw [if_neg few, if_neg few, BitVec.toNat_shiftLeft,
      BitVec.toNat_setWidth_of_le (by decide), shiftLeft_eq, Nat.mod_eq_of_lt fits]

/-- **Compact targets.**  The assertions of `GetCompact` hold.  What it writes is read without
flags, as the number without its bytes below the two or three highest; reading and writing again
changes nothing, larger numbers are read as larger, and every number that a compact form says is
kept. -/
theorem compact_targets : (∀ x : Uint256, let nSize := (getCompact x >>> 24).toNat
      let y := setCompact (getCompact x)
      ((compactParts x).1 &&& ~~~0x007fffff = 0 /\ (compactParts x).2 < 256) /\
        y.fNegative = false /\ y.fOverflow = false /\ y.target <= x /\
        (nSize = (bits x + 7) / 8 \/ nSize = (bits x + 7) / 8 + 1) /\
        y.target.toNat = x.toNat / 2 ^ (8 * (nSize - 3)) * 2 ^ (8 * (nSize - 3)) /\
        x.toNat - y.target.toNat < 2 ^ (8 * (nSize - 3)) /\ getCompact y.target = getCompact x) /\
    (∀ x x' : Uint256, x <= x' -> (setCompact (getCompact x)).target <= (setCompact (getCompact x')).target) /\
    ∀ c : BitVec 32, (setCompact c).fNegative = false -> (setCompact c).fOverflow = false ->
      (setCompact (getCompact (setCompact c).target)).target = (setCompact c).target := by
  refine ⟨fun x => ?_, fun x x' le => ?_, fun c _ clear => ?_⟩
  · by_cases zero : x = 0
    · rw [zero]
      decide
    obtain ⟨word, nSize, _⟩ := compactParts_spec zero
    have most := @bits_le x
    have below := @compactWord_lt x.toNat
    have sizes : (getCompact x >>> 24).toNat = compactSize x.toNat := by
      rw [toNat_size, toNat_getCompact zero]
      omega
    have positive := bits_pos zero
    have cut := compacted_eq x.toNat
    have rest := Nat.mod_lt x.toNat (Nat.two_pow_pos (8 * (compactSize x.toNat - 3)))
    have parts := div_add_mod' x.toNat (2 ^ (8 * (compactSize x.toNat - 3)))
    dsimp only
    rw [setCompact_getCompact, sizes, toNat_compacted, BitVec.le_def, toNat_compacted]
    refine ⟨⟨?_, by omega⟩, rfl, rfl, compacted_le, by omega, cut, by omega, getCompact_compacted x⟩
    have own : (compactParts x).1 = (compactParts x).1 &&& 0x007fffff := by
      apply BitVec.eq_of_toNat_eq
      rw [toNat_mantissa, Nat.mod_eq_of_lt (by omega)]
    rw [own, BitVec.and_assoc]
    exact BitVec.and_zero
  · rw [setCompact_getCompact, setCompact_getCompact, BitVec.le_def, toNat_compacted, toNat_compacted]
    exact compacted_mono le
  · obtain ⟨word, _, small, value⟩ := exists_toNat_target clear
    apply BitVec.eq_of_toNat_eq
    rw [setCompact_getCompact, toNat_compacted, value, compacted_shifted small]

end StakeCubeCoin.Primitives
