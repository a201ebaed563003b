import StakeCubeCoin.Evo.LosslessDiff
import StakeCubeCoin.Masternode.PaymentRules

namespace StakeCubeCoin.Masternode
namespace PaymentNode

open Primitives Governance Library.Matching Validation List CTxOut Bool CSuperblock Int
open ConsensusParams

variable {Hash : Type} [DecidableEq Hash] {node : PaymentNode Hash}

/-!
# Block templates

A miner starts from a coinbase that keeps the whole reward, and `FillBlockPayments` adds what
the masternode and the superblock get.  The node that made the template accepts it exactly if
the schedule of the superblock stays within the limits.  The filling does not look at them.
-/

/-- What `FillBlockPayments` adds for a superblock. -/
def superblockTxOuts (node : PaymentNode Hash) (nBlockHeight : Int) : List CTxOut :=
  if node.paysSuperblock nBlockHeight then
    node.getSuperblockPayments nBlockHeight
  else []

variable {nBlockHeight : Int}

/-- A trigger is looked at only where there can be a superblock. -/
theorem isValidBlockHeight_of_triggered (triggered : node.paysSuperblock nBlockHeight = true) :
    node.params.isValidBlockHeight nBlockHeight = true := by
  rw [paysSuperblock, and_eq_true, isSuperblockTriggered, and_eq_true] at triggered
  exact triggered.2.1

variable {superblock : CSuperblock}

theorem superblockTxOuts_of_best (triggered : node.paysSuperblock nBlockHeight = true)
    (best : node.getBestSuperblock nBlockHeight = some superblock) :
    node.superblockTxOuts nBlockHeight = superblock.outputs := by
  rw [superblockTxOuts, if_pos triggered, getSuperblockPayments, best]

def template (node : PaymentNode Hash) (nBlockHeight : Int) (blockReward : CAmount)
    (miner : CScript) :
    List CTxOut :=
  (node.fillBlockPayments [⟨blockReward, miner⟩] nBlockHeight blockReward).1

/-- The payments to the masternode come out of the reward of the miner. -/
theorem template_eq (nBlockHeight : Int) (blockReward : CAmount) (miner : CScript) :
    node.template nBlockHeight blockReward miner =
      ⟨blockReward - ((node.masternodeTxOuts nBlockHeight blockReward).map nValue).sum, miner⟩ ::
        (node.masternodeTxOuts nBlockHeight blockReward ++ node.superblockTxOuts nBlockHeight) := by
  have taken : ∀ (paid rest : List CTxOut) (value : CAmount),
    paid.foldl
      (fun (outputs : List CTxOut) txout =>
        outputs.modifyHead fun miner => { miner with nValue := miner.nValue - txout.nValue })
      (⟨value, miner⟩ :: rest) =
    ⟨value - (paid.map nValue).sum, miner⟩ :: rest := by
    intro paid rest
    induction paid with
    | nil =>
      intro value
      simp
    | cons _ _ ih =>
      intro value
      rw [foldl_cons, modifyHead_cons, ih, map_cons, sum_cons, sub_sub]
  exact taken _ _ _

/-- What a template has the block create. -/
theorem getValueOut_template {nBlockHeight : Int} {blockReward value : CAmount} {miner : CScript}
    (positive : 0 <= blockReward) :
    getValueOut (node.template nBlockHeight blockReward miner) = .ok value <->
      value = blockReward + ((node.superblockTxOuts nBlockHeight).map nValue).sum /\
        value <= MAX_MONEY := by
  have bounds := @masternodeTxOuts_bounds Hash _ node nBlockHeight blockReward positive
  rw [getValueOut_eq_ok_iff, template_eq, map_cons, sum_cons, map_append, sum_append,
    forall_mem_cons]
  constructor
  · rintro ⟨_, total, upper⟩
    exact ⟨by linarith, upper⟩
  rintro ⟨total, upper⟩
  refine ⟨⟨by linarith [bounds.2], ?_⟩, by linarith, upper⟩
  intro out member
  rcases mem_append.mp member with masternode | superblock
  · exact le_of_lt (bounds.1 out masternode)
  rw [superblockTxOuts, getSuperblockPayments] at superblock
  split at superblock
  · split at superblock
    · cases superblock
    · next best _ => exact best.outputs_nonneg out superblock
  · cases superblock

/-- The node that made a template finds the payments to the masternode in it. -/
theorem isTransactionValid_template (nBlockHeight : Int) (blockReward : CAmount) (miner : CScript) :
    node.isTransactionValid (node.template nBlockHeight blockReward miner)
      nBlockHeight blockReward = .ok true := by
  rw [isTransactionValid_iff, template_eq]
  exact fun _ out member => mem_cons_of_mem _ (mem_append_left _ member)

variable {blockReward : CAmount} {miner : CScript}

/-- The superblock that a template pays is found valid exactly if its schedule keeps to the
limit. -/
theorem isValidSuperblock_template (positive : 0 <= blockReward)
    (triggered : node.paysSuperblock nBlockHeight = true)
    (best : node.getBestSuperblock nBlockHeight = some superblock) :
    node.isValidSuperblock (node.template nBlockHeight blockReward miner) nBlockHeight blockReward =
      .ok true <-> superblock.getPaymentsTotalAmount <= node.params.getPaymentsLimit nBlockHeight /\
        blockReward + superblock.getPaymentsTotalAmount <= MAX_MONEY := by
  have paid := superblockTxOuts_of_best triggered best
  have value := @getValueOut_template Hash _ node nBlockHeight blockReward
    (blockReward + superblock.getPaymentsTotalAmount) miner positive
  rw [paid, superblock.sum_outputs] at value
  have long :
    superblock.vecPayments.length <= (node.template nBlockHeight blockReward miner).length := by
    rw [template_eq, paid, length_cons, length_append, outputs, length_map]
    omega
  have found :
    foundInOrder superblock.outputs (node.template nBlockHeight blockReward miner) = true := by
    rw [foundInOrder_iff, template_eq, paid]
    exact ((destutter_sublist _ _).trans (sublist_append_right _ _)).cons _
  rw [isValidSuperblock, best]
  rw [isValid_iff]
  constructor
  · rintro ⟨_, _, within, ⟨_, read, _⟩, _⟩
    have same := (getValueOut_template positive).mp read
    rw [paid, superblock.sum_outputs] at same
    exact ⟨within, same.1 ▸ same.2⟩
  · rintro ⟨within, upper⟩
    exact ⟨isValidBlockHeight_of_triggered triggered, long, within,
      ⟨_, value.mpr ⟨rfl, upper⟩, le_refl _⟩, found⟩

/-! ## Templates with and without a superblock -/

/-- What the template adds has to keep to the limit, and a node that knows the triggers has to
find a superblock valid. -/
theorem accepts_template {paid : CAmount} (synced : node.isSynced = true)
    (positive : 0 <= blockReward)
    (total : ((node.superblockTxOuts nBlockHeight).map nValue).sum = paid) (nonneg : 0 <= paid)
    (unpaid : node.paysSuperblock nBlockHeight = false -> paid = 0) :
    node.Accepts (node.template nBlockHeight blockReward miner) nBlockHeight blockReward <->
      (node.params.nBudgetPaymentsStartBlock <= nBlockHeight \/ paid = 0) /\
        paid <= node.params.getPaymentsLimit nBlockHeight /\ blockReward + paid <= MAX_MONEY /\
        (node.fDisableGovernance = false ->
          node.paysSuperblock nBlockHeight = true ->
          node.isValidSuperblock (node.template nBlockHeight blockReward miner)
            nBlockHeight blockReward = .ok true) := by
  have value : ∀ actual, getValueOut (node.template nBlockHeight blockReward miner) = .ok actual <->
    actual = blockReward + paid /\ actual <= MAX_MONEY := by
    intro actual
    rw [getValueOut_template positive, total]
  rw [Accepts, isBlockPayeeValid_iff]
  have payee : ∀ valid : Prop, (node.params.nSuperblockStartBlock <= nBlockHeight ->
      (node.paysSuperblock nBlockHeight = true -> valid) /\
        node.isTransactionValid (node.template nBlockHeight blockReward miner)
          nBlockHeight blockReward = .ok true) <->
      (node.paysSuperblock nBlockHeight = true -> valid) := by
    refine fun valid => ⟨fun holds triggered => (holds ?_).1 triggered,
      fun holds _ => ⟨holds, isTransactionValid_template _ _ _⟩⟩
    have height := isValidBlockHeight_of_triggered triggered
    rw [isValidBlockHeight, and_eq_true] at height
    exact of_decide_eq_true height.1
  simp only [payee]
  by_cases superblocks : node.params.nBudgetPaymentsStartBlock <= nBlockHeight /\
    node.params.isValidBlockHeight nBlockHeight = true
  · rw [isBlockValueValid_superblock superblocks.1 superblocks.2]
    constructor
    · rintro ⟨⟨actual, read, within, _⟩, valid⟩
      rcases (value actual).mp read with ⟨rfl, upper⟩
      exact ⟨.inl superblocks.1, by linarith, upper, valid⟩
    rintro ⟨_, within, upper, valid⟩
    refine ⟨⟨_, (value _).mpr ⟨rfl, upper⟩, by linarith, fun _ enabled => ?_⟩, valid⟩
    split
    · next triggered => exact valid enabled triggered
    · next regular => rw [unpaid (eq_false_iff.mpr regular), add_zero]
  · rw [not_and_or, not_le, not_eq_true] at superblocks
    rw [isBlockValueValid_regular superblocks (.inl synced)]
    constructor
    · rintro ⟨⟨actual, read, within⟩, valid⟩
      rcases (value actual).mp read with ⟨rfl, upper⟩
      have nothing : paid = 0 := by linarith
      exact ⟨.inr nothing, nothing ▸ node.params.getPaymentsLimit_nonneg _, upper, valid⟩
    · rintro ⟨early, _, upper, valid⟩
      have nothing : paid = 0 := by
        rcases superblocks with before | low
        · exact early.resolve_left (not_le.mpr before)
        · refine unpaid (eq_false_iff.mpr fun triggered => ?_)
          exact absurd (isValidBlockHeight_of_triggered triggered) (eq_false_iff.mp low)
      exact ⟨⟨_, (value _).mpr ⟨rfl, upper⟩, by linarith⟩, valid⟩

/-- The schedule that a template pays keeps to the limits: there is none, or a superblock's within
the budget, at a height where budgets are paid.  With the reward it is an amount of money. -/
def ScheduleFits (node : PaymentNode Hash) (nBlockHeight : Int) (blockReward : CAmount) : Prop :=
  if node.paysSuperblock nBlockHeight then
    match node.getBestSuperblock nBlockHeight with
    | none => node.fDisableGovernance = true /\ blockReward <= MAX_MONEY
    | some superblock =>
      superblock.getPaymentsTotalAmount <= node.params.getPaymentsLimit nBlockHeight /\
        (node.params.nBudgetPaymentsStartBlock <= nBlockHeight \/ superblock.getPaymentsTotalAmount = 0) /\
        blockReward + superblock.getPaymentsTotalAmount <= MAX_MONEY
  else blockReward <= MAX_MONEY

/-! ## A node of the test network with one masternode -/

def sampleMasternode : Evo.CDeterministicMN where
  internalId := 0
  proTxHash := 7
  collateralOutpoint := ⟨7, 0⟩
  pdmnState := { scriptPayout := Evo.samplePayScript 3 }

def sampleList : Evo.CDeterministicMNList Unit where
  mnMap := AList.insert 7 sampleMasternode ∅

/-- The masternode voted for a superblock at height 4224 with the given payments. -/
def sampleNode (superblock : CSuperblock) : PaymentNode Unit where
  params := ConsensusParams.test
  traversal := Evo.Traversal.byHash
  hash160 := fun _ => []
  getListForBlock := fun _ => sampleList
  getListAtChainTip := sampleList
  mapTrigger := [(9, superblock)]
  findGovernanceObject := fun _ =>
    some { mapCurrentMNVotes := [(⟨7, 0⟩, fun _ => some .yes)], fCachedFunding := false }
  areSuperblocksEnabled := true
  fDisableGovernance := false
  isSynced := true
  nOperatorReward_le := by
    intro _ payee found
    have paid : sampleList.getMNPayee Evo.Traversal.byHash = some sampleMasternode := by decide +kernel
    rw [paid] at found
    cases found
    decide

def sampleSuperblock (nAmount : CAmount) (inRange : Validation.moneyRange nAmount = true) :
    CSuperblock where
  nBlockHeight := 4224
  vecPayments := [⟨Evo.samplePayScript 8, nAmount⟩]
  nonempty := by simp
  moneyRange_nAmount := by
    intro payment member
    rw [List.mem_singleton.mp member]
    exact inRange

/-- A superblock that pays one coin, within the limit of 2.4 coins. -/
def modestNode : PaymentNode Unit :=
  sampleNode (sampleSuperblock COIN (by decide))

/-- A superblock that pays a hundred coins. -/
def lavishNode : PaymentNode Unit :=
  sampleNode (sampleSuperblock (100 * COIN) (by decide))

/-! ## Which templates are accepted -/

/-- A synced node accepts the templates it makes exactly if the schedule keeps to the limits.  The
other outputs share the reward and never make a difference. -/
theorem accepts_template_iff (node : PaymentNode Hash) (synced : node.isSynced = true)
    (nBlockHeight : Int) (nFees : CAmount) (fees : 0 <= nFees) (miner : CScript) : node.Accepts
      (node.template nBlockHeight (nFees + getBlockSubsidy (nBlockHeight - 1)) miner) nBlockHeight
      (nFees + getBlockSubsidy (nBlockHeight - 1)) <->
      node.ScheduleFits nBlockHeight (nFees + getBlockSubsidy (nBlockHeight - 1)) := by
  have positive : 0 <= nFees + getBlockSubsidy (nBlockHeight - 1) :=
    add_nonneg fees (getBlockSubsidy_bounds _).1
  unfold ScheduleFits
  split
  · next triggered =>
    split
    · next missing =>
      have nothing : ((node.superblockTxOuts nBlockHeight).map nValue).sum = 0 := by
        rw [superblockTxOuts, if_pos triggered, getSuperblockPayments, missing]
        rfl
      rw [accepts_template synced positive nothing (le_refl 0) fun _ => rfl,
        isValidSuperblock, missing, add_zero]
      constructor
      · rintro ⟨_, _, upper, valid⟩
        refine ⟨?_, upper⟩
        by_contra enabled
        exact absurd (valid (eq_false_iff.mpr enabled) triggered) nofun
      · rintro ⟨disabled, upper⟩
        exact ⟨.inr rfl, node.params.getPaymentsLimit_nonneg _, upper,
          fun enabled => absurd (enabled.symm.trans disabled) false_ne_true⟩
    · next superblock best =>
      have total : ((node.superblockTxOuts nBlockHeight).map nValue).sum =
        superblock.getPaymentsTotalAmount := by
        rw [superblockTxOuts_of_best triggered best, superblock.sum_outputs]
      rw [accepts_template synced positive total superblock.getPaymentsTotalAmount_nonneg
        fun regular => absurd triggered (eq_false_iff.mp regular),
        isValidSuperblock_template positive triggered best]
      exact ⟨fun holds => ⟨holds.2.1, holds.1, holds.2.2.1⟩,
        fun holds => ⟨holds.2.1, holds.1, holds.2.2, fun _ _ => ⟨holds.1, holds.2.2⟩⟩⟩
  · next regular =>
    have nothing : ((node.superblockTxOuts nBlockHeight).map nValue).sum = 0 := by
      rw [superblockTxOuts, if_neg regular]
      rfl
    rw [accepts_template synced positive nothing (le_refl 0) fun _ => rfl, add_zero]
    exact ⟨fun holds => holds.2.2.1, fun upper => ⟨.inr rfl, node.params.getPaymentsLimit_nonneg _, upper,
      fun _ triggered => absurd triggered regular⟩⟩

/-- A superblock that pays one coin fits. -/
theorem accepts_template_modest :
    modestNode.Accepts (modestNode.template 4224 (0 + getBlockSubsidy (4224 - 1)) []) 4224
      (0 + getBlockSubsidy (4224 - 1)) := by
  refine (accepts_template_iff modestNode rfl 4224 0 (le_refl 0) []).mpr ?_
  have best : modestNode.getBestSuperblock 4224 = some (sampleSuperblock COIN (by decide)) := rfl
  rw [ScheduleFits, best]
  decide +kernel

/-- A funded superblock that pays a hundred coins makes the template and every other coinbase
invalid. -/
theorem funded_schedule_blocks_height : lavishNode.isSuperblockTriggered 4224 = true /\
      ¬ lavishNode.Accepts (lavishNode.template 4224 (getBlockSubsidy 4223) []) 4224
        (getBlockSubsidy 4223) /\ ∀ vout blockReward, ¬ lavishNode.Accepts vout 4224 blockReward := by
  have triggered : lavishNode.paysSuperblock 4224 = true := by
    decide +kernel
  have best :
    lavishNode.getBestSuperblock 4224 = some (sampleSuperblock (100 * COIN) (by decide)) := rfl
  have never : ∀ vout blockReward, ¬ lavishNode.Accepts vout 4224 blockReward := by
    intro vout blockReward accepted
    have valid := (isBlockPayeeValid_iff.mp accepted.2 rfl (by decide +kernel)).1 triggered
    rw [isValidSuperblock, best] at valid
    exact not_le.mpr (by decide +kernel) (isValid_iff.mp valid).2.2.1
  exact ⟨triggered, never _ _, never⟩

end PaymentNode
end StakeCubeCoin.Masternode
