import Mathlib.Algebra.Order.BigOperators.Group.List
import StakeCubeCoin.Library.Matching
import StakeCubeCoin.Library.Run
import StakeCubeCoin.Validation.Subsidy

namespace StakeCubeCoin.Governance

open Primitives Library Library.Matching Validation List CTxOut Int

/-!
# Superblocks

`CSuperblock` of `governance/classes.{h,cpp}`.  A superblock pays out a schedule that the
masternodes voted for.  The schedule is parsed from the trigger object when the superblock is
created, so that a superblock has payments and each of them is an amount of money.  The schedule
as a whole is not compared with anything before the block is checked.
-/

/-- Code that may throw `std::runtime_error`, which carries its text. -/
abbrev Throws := Except String

structure ConsensusParams where
  nBudgetPaymentsStartBlock : Int
  nBudgetPaymentsCycleBlocks : Int
  nBudgetPaymentsWindowBlocks : Int
  nSuperblockStartBlock : Int
  nSuperblockCycle : Int
  nGovernanceMinQuorum : Int
  dip0003EnforcementHeight : Int
  nSuperblockCycle_pos : 0 < nSuperblockCycle

namespace ConsensusParams

/-- `CMainParams`. -/
def main : ConsensusParams where
  nBudgetPaymentsStartBlock := 2147483647
  nBudgetPaymentsCycleBlocks := 21600
  nBudgetPaymentsWindowBlocks := 100
  nSuperblockStartBlock := 10000
  nSuperblockCycle := 21600
  nGovernanceMinQuorum := 10
  dip0003EnforcementHeight := 2
  nSuperblockCycle_pos := by decide

/-- `CTestNetParams`. -/
def test : ConsensusParams where
  nBudgetPaymentsStartBlock := 4100
  nBudgetPaymentsCycleBlocks := 50
  nBudgetPaymentsWindowBlocks := 10
  nSuperblockStartBlock := 4200
  nSuperblockCycle := 24
  nGovernanceMinQuorum := 1
  dip0003EnforcementHeight := 700
  nSuperblockCycle_pos := by decide

end ConsensusParams

structure CGovernancePayment where
  script : CScript
  nAmount : CAmount
  deriving DecidableEq

def CGovernancePayment.txOut (payment : CGovernancePayment) : CTxOut :=
  ⟨payment.nAmount, payment.script⟩

/-- `CSuperblock`, with what its constructor makes sure of: `ParsePaymentSchedule` throws for a
schedule without payments, and `ParsePaymentAmount` for an amount that is out of range. -/
structure CSuperblock where
  nBlockHeight : Int
  vecPayments : List CGovernancePayment
  nonempty : vecPayments ≠ []
  moneyRange_nAmount : ∀ payment ∈ vecPayments, moneyRange payment.nAmount = true

namespace CSuperblock

variable (superblock : CSuperblock)

def getPaymentsTotalAmount : CAmount :=
  (superblock.vecPayments.map CGovernancePayment.nAmount).sum

def outputs : List CTxOut :=
  superblock.vecPayments.map CGovernancePayment.txOut

theorem sum_outputs : (superblock.outputs.map nValue).sum = superblock.getPaymentsTotalAmount := by
  rw [outputs, map_map]
  rfl

theorem outputs_nonneg (out : CTxOut) (listed : out ∈ superblock.outputs) : 0 <= out.nValue := by
  rcases mem_map.mp listed with ⟨payment, member, rfl⟩
  have inRange := superblock.moneyRange_nAmount payment member
  simp only [moneyRange, Bool.and_eq_true, decide_eq_true_eq] at inRange
  exact inRange.1

theorem getPaymentsTotalAmount_nonneg : 0 <= superblock.getPaymentsTotalAmount := by
  rw [<- sum_outputs]
  refine sum_nonneg fun amount listed => ?_
  rcases mem_map.mp listed with ⟨out, member, rfl⟩
  exact superblock.outputs_nonneg out member

end CSuperblock

namespace ConsensusParams

variable (params : ConsensusParams) (nBlockHeight : Int)

def isValidBlockHeight : Bool :=
  decide (params.nSuperblockStartBlock <= nBlockHeight) &&
    decide (nBlockHeight.tmod params.nSuperblockCycle = 0)

def getPaymentsLimit : CAmount :=
  if params.isValidBlockHeight nBlockHeight then
    getBlockSubsidy (nBlockHeight - 1) * params.nSuperblockCycle
  else 0

theorem getPaymentsLimit_nonneg : 0 <= params.getPaymentsLimit nBlockHeight := by
  unfold getPaymentsLimit
  split
  · exact mul_nonneg (getBlockSubsidy_bounds _).1 (le_of_lt params.nSuperblockCycle_pos)
  · exact le_refl 0

end ConsensusParams

def getValueOut (vout : List CTxOut) : Throws CAmount :=
  vout.foldlM
    (fun nValueOut tx_out =>
      if !moneyRange tx_out.nValue || !moneyRange (nValueOut + tx_out.nValue) then
        throw "GetValueOut: value out of range"
      else pure (nValueOut + tx_out.nValue))
    0

/-- The loop of `CSuperblock::IsValid` over the payments.  The search for the next payment
starts at the output that was found for the last one. -/
def matchPayments (vout : List CTxOut) : Nat -> List CGovernancePayment -> Bool
  | _, [] => true
  | nVoutIndex, payment :: rest =>
    let found := (vout.drop nVoutIndex).findIdx? fun out =>
      payment.script == out.scriptPubKey && payment.nAmount == out.nValue
    match found with
    | none => false
    | some steps => matchPayments vout (nVoutIndex + steps) rest

def CSuperblock.isValid (params : ConsensusParams) (superblock : CSuperblock) (vout : List CTxOut)
    (nBlockHeight : Int) (blockReward : CAmount) : Throws Bool :=
  if !params.isValidBlockHeight nBlockHeight then pure false
  else if vout.length < superblock.vecPayments.length then pure false
  else if params.getPaymentsLimit nBlockHeight < superblock.getPaymentsTotalAmount then pure false
  else do
    let nBlockValue <- getValueOut vout
    if blockReward + superblock.getPaymentsTotalAmount < nBlockValue then pure false
    else pure (matchPayments vout 0 superblock.vecPayments)

/-! ## What the checks establish -/

theorem moneyRange_iff {nValue : CAmount} :
    moneyRange nValue = true <-> 0 <= nValue /\ nValue <= MAX_MONEY := by
  simp [moneyRange]

variable {vout : List CTxOut}

theorem foldlM_value_eq_ok_iff {before value : CAmount} (start : moneyRange before = true) :
    vout.foldlM (fun nValueOut tx_out =>
          if !moneyRange tx_out.nValue || !moneyRange (nValueOut + tx_out.nValue) then
            (throw "GetValueOut: value out of range" : Throws CAmount)
          else pure (nValueOut + tx_out.nValue))
        before = .ok value <->
      (∀ out ∈ vout, 0 <= out.nValue) /\ before + (vout.map nValue).sum = value /\
        value <= MAX_MONEY := by
  induction vout generalizing before with
  | nil =>
    have upper := (moneyRange_iff.mp start).2
    constructor
    · intro read
      cases read
      simpa using upper
    · rintro ⟨_, same, _⟩
      rw [map_nil, sum_nil, add_zero] at same
      rw [same]
      rfl
  | cons out rest ih =>
    rw [foldlM_cons, map_cons, sum_cons, <- add_assoc]
    cases refused : !moneyRange out.nValue || !moneyRange (before + out.nValue) with
    | true =>
      constructor
      · intro read
        cases read
      rintro ⟨positive, _, upper⟩
      have rest_nonneg : 0 <= (rest.map nValue).sum :=
        sum_nonneg fun amount listed => by
          rcases mem_map.mp listed with ⟨later, member, rfl⟩
          exact positive later (.tail _ member)
      have first := positive out (.head _)
      have lower := (moneyRange_iff.mp start).1
      have valueRange : moneyRange out.nValue = true := moneyRange_iff.mpr ⟨first, by linarith⟩
      have sumRange : moneyRange (before + out.nValue) = true :=
        moneyRange_iff.mpr ⟨by linarith, by linarith⟩
      rw [valueRange, sumRange] at refused
      cases refused
    | false =>
      rw [Bool.or_eq_false_iff, Bool.not_eq_false', Bool.not_eq_false'] at refused
      have first := (moneyRange_iff.mp refused.1).1
      change rest.foldlM _ (before + out.nValue) = _ <-> _
      rw [ih refused.2]
      simp only [mem_cons, forall_eq_or_imp, first, true_and]

/-- The value of the outputs is read exactly if no amount is negative and the sum is an amount
of money. -/
theorem getValueOut_eq_ok_iff {value : CAmount} : getValueOut vout = .ok value <->
      (∀ out ∈ vout, 0 <= out.nValue) /\ (vout.map nValue).sum = value /\ value <= MAX_MONEY := by
  have loop := @foldlM_value_eq_ok_iff vout 0 value (by decide)
  rw [zero_add] at loop
  exact loop

theorem matchPayments_eq (vout : List CTxOut) (nVoutIndex : Nat)
    (payments : List CGovernancePayment) :
    matchPayments vout nVoutIndex payments =
      foundInOrder (payments.map CGovernancePayment.txOut) (vout.drop nVoutIndex) := by
  induction payments generalizing nVoutIndex with
  | nil => rfl
  | cons payment _ ih =>
    have test : (fun out : CTxOut => payment.script == out.scriptPubKey && payment.nAmount == out.nValue) =
        fun out => decide (out = payment.txOut) := by
      funext out
      cases out with
      | mk nValue scriptPubKey =>
        rw [Bool.eq_iff_iff]
        simp only [CGovernancePayment.txOut, mk.injEq, Bool.and_eq_true, beq_iff_eq, decide_eq_true_eq]
        exact ⟨fun both => ⟨both.2.symm, both.1.symm⟩, fun both => ⟨both.2.symm, both.1.symm⟩⟩
    rw [matchPayments, map_cons, foundInOrder_cons, test]
    cases (vout.drop nVoutIndex).findIdx? fun out => decide (out = payment.txOut) with
    | none => rfl
    | some _ =>
      dsimp only
      rw [ih, drop_drop]

/-- What a coinbase has to be like for a superblock to accept it. -/
theorem CSuperblock.isValid_iff {params : ConsensusParams} {superblock : CSuperblock}
    {nBlockHeight : Int} {blockReward : CAmount} :
    superblock.isValid params vout nBlockHeight blockReward = .ok true <->
      params.isValidBlockHeight nBlockHeight = true /\ superblock.vecPayments.length <= vout.length /\
        superblock.getPaymentsTotalAmount <= params.getPaymentsLimit nBlockHeight /\
        (∃ value, getValueOut vout = .ok value /\
          value <= blockReward + superblock.getPaymentsTotalAmount) /\
        foundInOrder superblock.outputs vout = true := by
  unfold CSuperblock.isValid
  rw [matchPayments_eq, drop_zero]
  split
  · next height =>
    exact ⟨by rintro ⟨⟩, fun holds => absurd holds.1 (by simpa using height)⟩
  split
  · next few => exact ⟨by rintro ⟨⟩, fun holds => absurd holds.2.1 (not_le.mpr few)⟩
  split
  · next much => exact ⟨by rintro ⟨⟩, fun holds => absurd holds.2.2.1 (not_le.mpr much)⟩
  next height enough within =>
  rw [bind_eq_ok_iff]
  constructor
  · rintro ⟨value, read, checked⟩
    split at checked
    · cases checked
    · next bounded =>
      exact ⟨by simpa using height, not_lt.mp enough, not_lt.mp within,
        ⟨value, read, not_lt.mp bounded⟩, Except.ok.inj checked⟩
  · rintro ⟨_, _, _, ⟨value, read, bounded⟩, found⟩
    refine ⟨value, read, ?_⟩
    rw [if_neg (not_lt.mpr bounded), <- CSuperblock.outputs, found]
    rfl

end StakeCubeCoin.Governance
