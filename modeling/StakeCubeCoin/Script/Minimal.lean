import Mathlib.Tactic.Ring
import StakeCubeCoin.Script.Interpreter

namespace StakeCubeCoin.Script
namespace CScriptNum

open Library List

/-!
# Numbers have one minimal encoding

The sign is the highest bit of the last byte, which moves when bytes are trimmed or added.
-/

def signByte (negative : Bool) : UInt8 :=
  if negative then 0x80 else 0

theorem bits_spec (byte : UInt8) :
    byte.toNat = (if signBit byte then 128 else 0) + (byte &&& 0x7f).toNat /\
    byte &&& 0x80 = signByte (signBit byte) /\ signBit (byte &&& 0x7f) = false /\
    (byte &&& 0x7f ||| signByte (signBit byte)) = byte /\
    (signBit byte = false -> ∀ negative, signBit (byte ||| signByte negative) = negative /\
      (byte ||| signByte negative) &&& 0x7f = byte) := by
  rcases byte with ⟨bits⟩
  revert bits
  decide +kernel

/-- The value of a string is that of its bits without the sign, with the sign. -/
theorem setVch_concat (lower : Valtype) (last : UInt8) : setVch (lower ++ [last]) =
      (if signBit last then -1 else 1) * ofLittleEndian (lower ++ [last &&& 0x7f]) := by
  unfold setVch
  rw [getLast?_concat, ofLittleEndian_concat, ofLittleEndian_concat, (bits_spec last).1,
    length_append]
  dsimp only [length_singleton, Nat.add_sub_cancel]
  split
  · push_cast
    ring
  · push_cast
    ring

variable (negative : Bool) (lower : List UInt8)

/-- Trimming keeps the value, and what is left is minimal. -/
theorem trim_spec :
    setVch (trim (signByte negative) lower) = (if negative then -1 else 1) * ofLittleEndian lower.reverse /\
      minimallyEncode (trim (signByte negative) lower) = (trim (signByte negative) lower, false) := by
  induction lower with
  | nil => exact ⟨(mul_zero _).symm, rfl⟩
  | cons byte lower ih =>
    rw [trim]
    split
    · next nonzero =>
      split
      · next signed =>
        refine ⟨?_, by simp [minimallyEncode, signed]⟩
        rw [reverse_cons, setVch_concat, ofLittleEndian_concat]
        cases negative <;> simp [signByte, signBit]
      · next plain =>
        have bits := (bits_spec byte).2.2.2.2 (Bool.eq_false_iff.mpr plain) negative
        refine ⟨?_, by simp [minimallyEncode, bits, nonzero]⟩
        rw [reverse_cons, reverse_cons, setVch_concat, bits.1, bits.2]
    · next zero =>
      refine ⟨?_, ih.2⟩
      rw [ih.1, reverse_cons, ofLittleEndian_concat, not_not.mp zero]
      rfl

/-- `MinimallyEncode` trims the bits without the sign, if anything. -/
theorem minimallyEncode_concat (last : UInt8) : (minimallyEncode (lower.reverse ++ [last])).1 =
    trim (signByte (signBit last)) ((last &&& 0x7f) :: lower) := by
  have bits := bits_spec last
  rw [<- reverse_cons, minimallyEncode, reverse_reverse, trim, bits.2.2.1]
  dsimp only
  split
  · rw [if_neg Bool.false_ne_true, bits.2.2.2.1]
  next zero =>
  have sign := bits.2.2.2.1
  rw [not_not.mp zero, UInt8.zero_or] at sign
  rw [sign]
  cases lower with
  | nil => rfl
  | cons second lower =>
    dsimp only
    split
    · next signed =>
      have nonzero : second ≠ 0 := by
        rintro rfl
        cases signed
      rw [trim, if_pos nonzero, if_pos signed]
    · rfl

/-- A last byte that is only a sign, and zeros in front of it, make no difference. -/
theorem minimallyEncode_padded (count : Nat) :
    (minimallyEncode (lower.reverse ++ replicate count 0 ++ [signByte negative])).1 =
      trim (signByte negative) lower := by
  have join : lower.reverse ++ replicate count 0 = (replicate count 0 ++ lower).reverse := by
    simp
  have sign : signBit (signByte negative) = negative /\ signByte negative &&& 0x7f = 0 := by
    cases negative <;> decide
  rw [join, minimallyEncode_concat, sign.1, sign.2, trim, if_neg (not_not.mpr rfl)]
  induction count with
  | zero => rfl
  | succ count ih => exact ih (by simp)

variable (data : Valtype)

theorem minimallyEncode_fst : setVch (minimallyEncode data).1 = setVch data /\
      minimallyEncode (minimallyEncode data).1 = ((minimallyEncode data).1, false) := by
  rcases eq_nil_or_concat' data with rfl | ⟨lower, last, rfl⟩
  · exact ⟨rfl, rfl⟩
  · have trimmed := minimallyEncode_concat lower.reverse last
    rw [reverse_reverse] at trimmed
    rw [trimmed, (trim_spec _ _).1, setVch_concat, reverse_cons, reverse_reverse]
    exact ⟨rfl, (trim_spec _ _).2⟩

/-- A string that is left as it is passes the check, unless it is too long. -/
theorem isMinimallyEncoded_eq {data : Valtype} (fixed : minimallyEncode data = (data, false))
    (nMaxNumSize : Nat) :
    isMinimallyEncoded data nMaxNumSize = decide (data.length <= nMaxNumSize) := by
  revert fixed
  unfold isMinimallyEncoded minimallyEncode
  rcases data.reverse with _ | ⟨last, _ | ⟨second, lower⟩⟩
  · simp
  · by_cases zero : last &&& 0x7f = 0 <;> simp [zero]
  · by_cases zero : last &&& 0x7f = 0 <;> by_cases signed : signBit second <;> simp [zero, signed]

/-- The digits of a number, of which the last is not zero. -/
theorem magnitude_spec (count absvalue : Nat) (fits : absvalue < 256 ^ count) :
    ofLittleEndian (magnitude count absvalue) = absvalue /\ (magnitude count absvalue).getLast? ≠ some 0 := by
  induction count generalizing absvalue with
  | zero => exact ⟨(Nat.lt_one_iff.mp fits).symm, nofun⟩
  | succ count ih =>
    rw [magnitude]
    split
    · next zero => exact ⟨zero.symm, nofun⟩
    next nonzero =>
    have digits := ih (absvalue / 256) (Nat.div_lt_of_lt_mul (by rwa [<- pow_succ']))
    have digit : (UInt8.ofNat absvalue).toNat = absvalue % 256 := UInt8.toNat_ofNat'
    rw [ofLittleEndian, getLast?_cons]
    refine ⟨by omega, fun zero => ?_⟩
    cases last : (magnitude count (absvalue / 256)).getLast? with
    | none =>
      rw [getLast?_eq_none_iff.mp last] at digits
      have small : 0 = absvalue / 256 := digits.1
      rw [last] at zero
      have none : UInt8.ofNat absvalue = 0 := Option.some.inj zero
      rw [none] at digit
      change 0 = absvalue % 256 at digit
      omega
    | some byte =>
      rw [last] at zero digits
      exact digits.2 zero

/-- A number is written as what is left of its digits and its sign. -/
theorem serialize_eq_trim (value : Int) (fits : value.natAbs < 2 ^ 63) :
    serialize value = trim (signByte (decide (value < 0))) (magnitude 8 value.natAbs).reverse := by
  have last := (magnitude_spec 8 value.natAbs (by omega)).2
  unfold serialize withSign
  split
  · next zero =>
    subst zero
    rfl
  rw [getLast?_eq_head?_reverse] at last
  have whole := (reverse_reverse (magnitude 8 value.natAbs)).symm
  cases reversed : (magnitude 8 value.natAbs).reverse with
  | nil => rfl
  | cons byte lower =>
    rw [reversed] at last whole
    have nonzero : byte ≠ 0 := fun zero => last (congrArg some zero)
    rw [trim, if_pos nonzero, whole]
    cases decide (value < 0) with
    | true => simp [signByte]
    | false => simp [signByte]

end CScriptNum

open CScriptNum List

/-- `OP_NUM2BIN` to a size that is large enough can be undone. -/
theorem minimallyEncode_evalNum2Bin (size : Nat) (rawnum : Valtype)
    (enough : (minimallyEncode rawnum).1.length <= size) (few : size <= MAX_SCRIPT_ELEMENT_SIZE) :
    ∃ padded, evalNum2Bin size rawnum = .ok padded /\ padded.length = size /\
      (minimallyEncode padded).1 = (minimallyEncode rawnum).1 := by
  have fixed := congrArg Prod.fst (minimallyEncode_fst rawnum).2
  unfold evalNum2Bin
  rw [if_neg (by omega)]
  generalize (minimallyEncode rawnum).1 = minimal at enough fixed ⊢
  rw [if_neg (by omega)]
  split
  · next same => exact ⟨minimal, rfl, by omega, fixed⟩
  next longer =>
  cases reversed : minimal.reverse with
  | nil =>
    rw [reverse_eq_nil_iff.mp reversed] at longer ⊢
    refine ⟨_, rfl, ?_, minimallyEncode_padded false [] _⟩
    simp only [length_append, length_replicate, length_singleton, Int.toNat_natCast, length_nil] at longer ⊢
    omega
  | cons last lower =>
    have whole : minimal = lower.reverse ++ [last] := by rw [<- reverse_cons, <- reversed, reverse_reverse]
    subst whole
    refine ⟨_, rfl, ?_, ?_⟩
    · simp only [length_append, length_reverse, length_cons, length_replicate, length_nil, Int.toNat_natCast]
        at longer enough ⊢
      omega
    · rw [(bits_spec last).2.1, minimallyEncode_padded, <- minimallyEncode_concat]
      exact fixed

/-- Numbers have one minimal encoding.  `MinimallyEncode` finds it without changing the number,
`serialize` writes it, and `OP_BIN2NUM` takes back what `OP_NUM2BIN` pads. -/
theorem scriptNum_minimal : (∀ data, setVch (minimallyEncode data).1 = setVch data /\
      (∀ nMaxNumSize, isMinimallyEncoded (minimallyEncode data).1 nMaxNumSize =
        decide ((minimallyEncode data).1.length <= nMaxNumSize)) /\
      minimallyEncode (minimallyEncode data).1 = ((minimallyEncode data).1, false) /\
      (minimallyEncode data).2 = decide ((minimallyEncode data).1 ≠ data)) /\
    (∀ n : Int, n.natAbs < 2 ^ 63 -> setVch (serialize n) = n /\
      ∀ nMaxNumSize, isMinimallyEncoded (serialize n) nMaxNumSize = decide ((serialize n).length <= nMaxNumSize)) /\
    ∀ crypto flags checker pbegincodehash size rawnum rest (s : Nat), operand flags size = .ok s ->
      (minimallyEncode rawnum).1.length <= 4 -> (minimallyEncode rawnum).1.length <= s ->
      s <= MAX_SCRIPT_ELEMENT_SIZE -> ∃ padded, padded.length = s /\
        evalStackOp crypto flags checker pbegincodehash .OP_NUM2BIN (size :: rawnum :: rest) = .ok (padded :: rest) /\
        evalStackOp crypto flags checker pbegincodehash .OP_BIN2NUM (padded :: rest) =
          .ok ((minimallyEncode rawnum).1 :: rest) := by
  refine ⟨fun data => ?_, fun n fits => ?_, ?_⟩
  · rcases minimallyEncode_fst data with ⟨kept, fixed⟩
    refine ⟨kept, isMinimallyEncoded_eq fixed, fixed, ?_⟩
    by_cases same : (minimallyEncode data).1 = data
    · rw [same] at fixed
      simp [fixed]
    rw [decide_eq_true same]
    by_contra unchanged
    -- Only what is left as it is counts as unchanged.
    apply same
    revert unchanged
    unfold minimallyEncode
    grind
  · have trimmed := trim_spec (decide (n < 0)) (magnitude 8 n.natAbs).reverse
    rw [<- serialize_eq_trim n fits, reverse_reverse, (magnitude_spec 8 n.natAbs (by omega)).1] at trimmed
    refine ⟨?_, isMinimallyEncoded_eq trimmed.2⟩
    rw [trimmed.1]
    simp only [decide_eq_true_iff]
    split <;> omega
  · intro crypto flags checker pbegincodehash size rawnum rest s read short enough few
    rcases minimallyEncode_evalNum2Bin s rawnum enough few with ⟨padded, written, long, back⟩
    have int : getint s = s := by
      unfold MAX_SCRIPT_ELEMENT_SIZE at few
      unfold getint INT_MAX INT_MIN
      rw [if_neg (by omega), if_neg (by omega)]
    refine ⟨padded, long, ?_, ?_⟩
    · simp only [evalStackOp, read, bind, Except.bind, int, written]
      rfl
    · simp only [evalStackOp, back]
      exact if_pos ((isMinimallyEncoded_eq (minimallyEncode_fst rawnum).2 _).trans (decide_eq_true short))

end StakeCubeCoin.Script
