import StakeCubeCoin.Chain.ChainState
import StakeCubeCoin.Primitives.Compact

namespace StakeCubeCoin
namespace Primitives

open Nat

/-!
# The work of a chain

`base_uint::operator/=` divides bit by bit.  `GetBlockProof` uses it on the complement of a target,
because two to the power of 256 is not a number of that width, and `AddToBlockIndex` adds the proofs
up along a chain.
-/

/-- The loop of `base_uint::operator/=`, with the number of rounds that are left. -/
def divideLoop : Nat -> Uint256 -> Uint256 -> Uint256 -> Uint256
  | 0, _, _, quotient => quotient
  | shift + 1, num, div, quotient =>
    if div <= num then divideLoop shift (num - div) (div >>> 1) (quotient ||| ((1 : Uint256) <<< shift))
    else divideLoop shift num (div >>> 1) quotient

/-- `base_uint::operator/=`.  Division by zero throws. -/
def divide (num div : Uint256) : Option Uint256 :=
  if bits div = 0 then none
  else if bits num < bits div then some 0
  else some (divideLoop (bits num - bits div + 1) num (div <<< (bits num - bits div)) 0)

/-- With the divisor shifted to the bit of the round, the loop adds the quotient of the rest. -/
theorem toNat_divideLoop {rounds : Nat} (few : rounds <= 256) {num div quotient : Uint256}
    {divisor : Nat} (shifted : div.toNat = divisor * 2 ^ rounds / 2)
    (rest : num.toNat < divisor * 2 ^ rounds) (aligned : 2 ^ rounds ∣ quotient.toNat) :
    (divideLoop rounds num div quotient).toNat = quotient.toNat + num.toNat / divisor := by
  induction rounds generalizing num div quotient with
  | zero =>
    rw [pow_zero, mul_one] at rest
    rw [divideLoop, div_eq_of_lt rest, add_zero]
  | succ shift ih =>
    rw [pow_succ, <- mul_assoc, Nat.mul_div_cancel _ Nat.two_pos] at shifted
    have next : (div >>> 1).toNat = divisor * 2 ^ shift / 2 := by
      rw [BitVec.toNat_ushiftRight, shiftRight_eq_div_pow, shifted]
    rw [pow_succ, <- mul_assoc] at rest
    have half : 2 ^ shift ∣ quotient.toNat := (pow_dvd_pow 2 (le_succ shift)).trans aligned
    rw [divideLoop]
    split
    · next enough =>
      rw [BitVec.le_def, shifted] at enough
      obtain ⟨more, split⟩ := Nat.exists_eq_add_of_le enough
      obtain ⟨_, whole⟩ := aligned
      have bit : (quotient ||| ((1 : Uint256) <<< shift)).toNat = quotient.toNat + 2 ^ shift := by
        rw [BitVec.toNat_or, BitVec.toNat_shiftLeft, show (1 : Uint256).toNat = 1 from rfl, Nat.shiftLeft_eq, one_mul,
          Nat.mod_eq_of_lt (Nat.pow_lt_pow_right Nat.one_lt_two (by omega)), whole, mul_comm, <- Nat.shiftLeft_eq,
          shiftLeft_add_eq_or_of_lt (Nat.pow_lt_pow_right Nat.one_lt_two (lt_succ_self shift))]
      have left : (num - div).toNat = more := by
        rw [BitVec.toNat_sub_of_le (by rw [BitVec.le_def]; omega), shifted, split, Nat.add_sub_cancel_left]
      have positive : 0 < divisor := Nat.pos_of_ne_zero fun zero => by rw [zero] at rest; omega
      rw [ih (by omega) next (by omega) (by rw [bit]; exact Nat.dvd_add half (Nat.dvd_refl _)),
        bit, left, split, mul_add_div positive, add_assoc]
    · next less =>
      rw [BitVec.le_def] at less
      exact ih (by omega) next (by omega) half

variable {num div : Uint256}

theorem divide_eq (positive : div ≠ 0) : divide num div = some (num / div) := by
  have some := bits_pos positive
  have most := @bits_le num
  have least := two_pow_bits_le positive
  have above := @toNat_lt_two_pow_bits num
  rw [divide, if_neg (ne_of_gt some)]
  split
  · next _ =>
    refine congrArg Option.some (BitVec.eq_of_toNat_eq ?_)
    rw [BitVec.toNat_udiv, div_eq_of_lt]
    · rfl
    · exact lt_of_lt_of_le above (le_trans (Nat.pow_le_pow_right Nat.two_pos (by omega)) least)
  · next enough =>
    obtain ⟨shift, sizes⟩ := Nat.exists_eq_add_of_le (Nat.le_of_not_lt enough)
    rw [sizes, Nat.add_sub_cancel_left]
    have fits : div.toNat * 2 ^ shift < 2 ^ 256 := by
      refine lt_of_lt_of_le (Nat.mul_lt_mul_of_pos_right toNat_lt_two_pow_bits (Nat.two_pow_pos _)) ?_
      rw [<- pow_add]
      exact Nat.pow_le_pow_right Nat.two_pos (by omega)
    refine congrArg Option.some (BitVec.eq_of_toNat_eq ?_)
    rw [@toNat_divideLoop (shift + 1) (by omega) _ _ _ div.toNat]
    · exact zero_add _
    · rw [BitVec.toNat_shiftLeft, Nat.shiftLeft_eq, Nat.mod_eq_of_lt fits, pow_succ, <- mul_assoc,
        Nat.mul_div_cancel _ Nat.two_pos]
    · refine lt_of_lt_of_le above (le_trans ?_ (mul_le_mul_right _ least))
      rw [<- pow_add]
      exact Nat.pow_le_pow_right Nat.two_pos (by omega)
    · exact Nat.dvd_zero _

/-- The bits of a header that give a target. -/
def Decodes (nBits : BitVec 32) : Prop :=
  (setCompact nBits).fNegative = false /\ (setCompact nBits).fOverflow = false /\
    1 <= (setCompact nBits).target

variable {nBits : BitVec 32}

/-- The largest number has more bytes than a mantissa, so one more than a target is a number as
well. -/
theorem toNat_succ_target (decodes : Decodes nBits) :
    ((setCompact nBits).target + 1).toNat = (setCompact nBits).target.toNat + 1 := by
  obtain ⟨_, shift, _, value⟩ := exists_toNat_target decodes.2.1
  have room : (setCompact nBits).target.toNat + 1 < 2 ^ 256 := by
    cases shift with
    | zero =>
      omega
    | succ shift =>
      rw [show 8 * (shift + 1) = 8 * shift + 7 + 1 by omega, pow_succ, <- mul_assoc] at value
      omega
  exact Nat.mod_eq_of_lt room

theorem toNat_getBlockProof (decodes : Decodes nBits) :
    (getBlockProof nBits).toNat = 2 ^ 256 / ((setCompact nBits).target.toNat + 1) := by
  have one := toNat_succ_target decodes
  obtain ⟨sign, fits, positive⟩ := decodes
  have nonzero : (setCompact nBits).target ≠ 0 := by
    intro zero
    rw [zero] at positive
    cases positive
  unfold getBlockProof
  simp only [sign, fits, nonzero, Bool.or_false, decide_false]
  have least : 1 <= (setCompact nBits).target.toNat := positive
  have unit : (1 : Uint256).toNat = 1 := rfl
  rw [if_neg Bool.false_ne_true, BitVec.toNat_add, BitVec.toNat_udiv, BitVec.toNat_not, one,
    unit, Nat.sub_sub, add_comm 1, <- div_eq_sub_div (Nat.succ_pos _) (by omega)]
  exact Nat.mod_eq_of_lt (Nat.div_lt_self (Nat.two_pow_pos _) (by omega))

theorem getBlockProof_pos (decodes : Decodes nBits) : 0 < (getBlockProof nBits).toNat := by
  rw [toNat_getBlockProof decodes]
  exact div_pos (succ_le_of_lt (setCompact nBits).target.isLt) (Nat.succ_pos _)

end Primitives

namespace Chain

open Primitives

def ChainState.addHeaders (prim : HashPrimitives) (calls : List (CBlockHeader × BlockStatus))
    (state : ChainState) :
    ChainState :=
  calls.foldl (fun state call => state.addToBlockIndex prim call.1 call.2) state

/-- Every entry with an entry before it has the work of that entry and its own. -/
def BlockMap.WorkAdds (map : BlockMap) : Prop :=
  ∀ hash entry prev, map hash = some entry -> entry.pprev = some prev -> ∃ parent,
    map prev = some parent /\ entry.nChainWork = parent.nChainWork + (getBlockProof entry.nBits).toNat

theorem workAdds_addToBlockIndex {prim : HashPrimitives} {state : ChainState} {block : CBlockHeader}
    {nStatus : BlockStatus} (adds : state.m_block_index.WorkAdds) :
    (state.addToBlockIndex prim block nStatus).m_block_index.WorkAdds := by
  cases unknown : state.m_block_index (block.getHash prim) with
  | some entry =>
    rw [addToBlockIndex_of_known (Option.isSome_of_eq_some unknown)]
    exact adds
  | none =>
    rw [index_addToBlockIndex unknown]
    intro hash entry prev found before
    -- The new entry takes nobody's place.
    have kept {other : Uint256} {parent new : CBlockIndex} (there : state.m_block_index other = some parent) :
        Function.update state.m_block_index (block.getHash prim) (some new) other = some parent := by
      rw [Function.update_of_ne, there]
      intro same
      rw [same, unknown] at there
      cases there
    by_cases same : hash = block.getHash prim
    · rw [same, Function.update_self] at found
      cases found
      rcases Option.map_eq_some_iff.mp before with ⟨parent, there, rfl⟩
      refine ⟨parent, kept there, ?_⟩
      simp only [ChainState.newEntry, there]
      rfl
    · rw [Function.update_of_ne same] at found
      rcases adds hash entry prev found before with ⟨parent, there, work⟩
      exact ⟨parent, kept there, work⟩

theorem workAdds_addHeaders {prim : HashPrimitives} {calls : List (CBlockHeader × BlockStatus)}
    {state : ChainState} (adds : state.m_block_index.WorkAdds) :
    (state.addHeaders prim calls).m_block_index.WorkAdds := by
  induction calls generalizing state with
  | nil => exact adds
  | cons _ _ ih => exact ih (workAdds_addToBlockIndex adds)

/-- **The proof of a block is exact, and work increases along a chain.**  The proof of a target is
the number of hashes it takes, rounded down, and a smaller target has no smaller proof.  In an index
made by `AddToBlockIndex` work grows from entry to entry, as do the words of 256 bits while it fits
into one. -/
theorem blockProof_exact : (∀ nBits, Decodes nBits ->
      divide (~~~(setCompact nBits).target) ((setCompact nBits).target + 1) =
          some (~~~(setCompact nBits).target / ((setCompact nBits).target + 1)) /\
        (getBlockProof nBits).toNat = 2 ^ 256 / ((setCompact nBits).target.toNat + 1) /\ 1 <= getBlockProof nBits) /\
    (∀ first second, Decodes first -> Decodes second -> (setCompact first).target <= (setCompact second).target ->
      getBlockProof second <= getBlockProof first) /\
    ∀ (prim : HashPrimitives) (calls : List (CBlockHeader × BlockStatus)) (state : ChainState),
      (∀ hash, state.m_block_index hash = none) -> ∀ hash entry prev,
      (state.addHeaders prim calls).m_block_index hash = some entry -> entry.pprev = some prev -> Decodes entry.nBits ->
      ∃ parent, (state.addHeaders prim calls).m_block_index prev = some parent /\
        BitVec.ofNat 256 entry.nChainWork = BitVec.ofNat 256 parent.nChainWork + getBlockProof
        entry.nBits /\ parent.nChainWork < entry.nChainWork /\ (entry.nChainWork < 2 ^ 256 ->
          (BitVec.ofNat 256 parent.nChainWork) < BitVec.ofNat 256 entry.nChainWork) := by
  refine ⟨fun nBits decodes => ⟨divide_eq ?_, toNat_getBlockProof decodes, getBlockProof_pos decodes⟩, ?_, ?_⟩
  · intro zero
    have one := toNat_succ_target decodes
    rw [zero] at one
    cases one
  · intro first second decodes decodes' le
    rw [BitVec.le_def, toNat_getBlockProof decodes, toNat_getBlockProof decodes']
    exact Nat.div_le_div_left (Nat.succ_le_succ le) (Nat.succ_pos _)
  · intro prim calls state empty hash entry prev found before decodes
    have adds : state.m_block_index.WorkAdds := by
      intro hash entry prev found
      rw [empty] at found
      cases found
    rcases workAdds_addHeaders adds hash entry prev found before with ⟨parent, there, work⟩
    have positive := getBlockProof_pos decodes
    refine ⟨parent, there, ?_, by omega, fun fits => ?_⟩
    · rw [work, BitVec.ofNat_add, BitVec.ofNat_toNat, BitVec.setWidth_eq]
    · rw [BitVec.lt_def, BitVec.toNat_ofNat, BitVec.toNat_ofNat, Nat.mod_eq_of_lt fits]
      omega

end Chain
end StakeCubeCoin
