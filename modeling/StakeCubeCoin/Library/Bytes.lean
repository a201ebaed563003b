import Mathlib.Data.BitVec

namespace StakeCubeCoin.Library

open Nat

/-!
# Little-endian bytes

Fixed-width unsigned integers as byte strings, lowest byte first.
-/

def littleEndian : Nat -> Nat -> List UInt8
  | 0, _ => []
  | count + 1, value => UInt8.ofNat value :: littleEndian count (value / 256)

def ofLittleEndian : List UInt8 -> Nat
  | [] => 0
  | byte :: rest => byte.toNat + 256 * ofLittleEndian rest

@[simp] theorem length_littleEndian (count value : Nat) :
    (littleEndian count value).length = count := by
  induction count generalizing value with
  | zero => rfl
  | succ count ih =>
    rw [littleEndian, List.length_cons, ih]

theorem ofLittleEndian_littleEndian (count value : Nat) :
    ofLittleEndian (littleEndian count value) = value % 256 ^ count := by
  induction count generalizing value with
  | zero => simp [littleEndian, ofLittleEndian, mod_one]
  | succ count ih =>
    have split : value % 256 ^ (count + 1) = value % 256 + 256 * (value / 256 % 256 ^ count) := by
      rw [pow_succ', mod_mul]
    rw [littleEndian, ofLittleEndian, ih, UInt8.toNat_ofNat', split]

theorem ofLittleEndian_concat (lower : List UInt8) (last : UInt8) :
    ofLittleEndian (lower ++ [last]) = ofLittleEndian lower + 256 ^ lower.length * last.toNat := by
  induction lower with
  | nil => simp [ofLittleEndian]
  | cons byte lower ih =>
    rw [List.cons_append, ofLittleEndian, ih, ofLittleEndian, List.length_cons,
      pow_succ', Nat.mul_add, Nat.mul_assoc, Nat.add_assoc]

theorem littleEndian_injective {count first second : Nat} (firstFits : first < 256 ^ count)
    (secondFits : second < 256 ^ count)
    (same : littleEndian count first = littleEndian count second) : first = second := by
  have decoded := congrArg ofLittleEndian same
  rw [ofLittleEndian_littleEndian, ofLittleEndian_littleEndian, mod_eq_of_lt firstFits,
    mod_eq_of_lt secondFits] at decoded
  exact decoded

end StakeCubeCoin.Library
