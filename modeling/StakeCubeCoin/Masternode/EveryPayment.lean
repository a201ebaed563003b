import StakeCubeCoin.Masternode.Templates

namespace StakeCubeCoin.Masternode
namespace PaymentNode

open Primitives Governance Library.Matching Validation List CSuperblock CTxOut Int

variable {Hash : Type} [DecidableEq Hash] {node : PaymentNode Hash}

/-!
# Does the coinbase pay everyone?

The payments of a superblock are looked for in order, each from the output found last, and those
to the masternode one by one in the same outputs.  One output can therefore stand for several
payments that are alike: for adjacent payments of the schedule, for the owner and the operator,
or for a payment of the schedule and one to the masternode.  Where no two of these coincide,
every payment has an output of its own.
-/

/-- The outputs that a coinbase with the given superblock is expected to have. -/
def expectedOutputs (node : PaymentNode Hash) (superblock : CSuperblock) (nBlockHeight : Int)
    (blockReward : CAmount) : List CTxOut :=
  superblock.outputs ++ node.masternodeTxOuts nBlockHeight blockReward

/-- Every expected payment has an output of its own, and the other outputs get at most the reward
without the masternode's share. -/
def PaysEveryone (node : PaymentNode Hash) (superblock : CSuperblock) (vout : List CTxOut)
    (nBlockHeight : Int) (blockReward : CAmount) : Prop :=
  Exists fun assignment : Assignment (node.expectedOutputs superblock nBlockHeight blockReward) vout =>
    ∑ index ∈ assignment.unassigned, (vout.get index).nValue <=
      blockReward - ((node.masternodeTxOuts nBlockHeight blockReward).map CTxOut.nValue).sum

/-- No two payments that are looked for next to each other coincide. -/
def PaymentsDiffer (node : PaymentNode Hash) (superblock : CSuperblock) (nBlockHeight : Int)
    (blockReward : CAmount) : Prop :=
  superblock.outputs.IsChain (· ≠ ·) /\ (node.masternodeTxOuts nBlockHeight blockReward).Nodup /\
    superblock.outputs.Disjoint (node.masternodeTxOuts nBlockHeight blockReward)

/-! ## Which coinbases are accepted -/

/-- What the checks ask of a coinbase at a height with a triggered superblock.  No member asks for
outputs of their own for two payments that are the same. -/
structure Passes (node : PaymentNode Hash) (superblock : CSuperblock) (vout : List CTxOut)
    (nBlockHeight : Int) (blockReward : CAmount) : Prop where
  nonneg : ∀ out ∈ vout, 0 <= out.nValue
  money : (vout.map CTxOut.nValue).sum <= MAX_MONEY
  schedule : superblock.getPaymentsTotalAmount <= node.params.getPaymentsLimit nBlockHeight
  long : superblock.vecPayments.length <= vout.length
  total : (vout.map CTxOut.nValue).sum <= blockReward + superblock.getPaymentsTotalAmount
  early : nBlockHeight < node.params.nBudgetPaymentsStartBlock ->
    (vout.map CTxOut.nValue).sum <= blockReward
  inOrder : foundInOrder superblock.outputs vout = true
  present : ∀ out ∈ node.masternodeTxOuts nBlockHeight blockReward, out ∈ vout

section

variable {nBlockHeight : Int} {blockReward : CAmount} {superblock : CSuperblock}
  {vout : List CTxOut}

theorem isValidSuperblock_iff_of_best
    (best : node.getBestSuperblock nBlockHeight = some superblock) :
    node.isValidSuperblock vout nBlockHeight blockReward = .ok true <->
      superblock.isValid node.params vout nBlockHeight blockReward = .ok true := by
  rw [isValidSuperblock, best]

theorem nSuperblockStartBlock_le_of_triggered
    (triggered : node.paysSuperblock nBlockHeight = true) :
    node.params.nSuperblockStartBlock <= nBlockHeight := by
  have height := isValidBlockHeight_of_triggered triggered
  rw [ConsensusParams.isValidBlockHeight, Bool.and_eq_true] at height
  exact of_decide_eq_true height.1

theorem accepts_iff_passes (synced : node.isSynced = true)
    (enabled : node.fDisableGovernance = false)
    (enforced : node.params.dip0003EnforcementHeight <= nBlockHeight)
    (triggered : node.paysSuperblock nBlockHeight = true)
    (best : node.getBestSuperblock nBlockHeight = some superblock) :
    node.Accepts vout nBlockHeight blockReward <->
      node.Passes superblock vout nBlockHeight blockReward := by
  have height := isValidBlockHeight_of_triggered triggered
  have payee : node.isBlockPayeeValid vout nBlockHeight blockReward = .ok true <->
    superblock.isValid node.params vout nBlockHeight blockReward = .ok true /\
      ∀ out ∈ node.masternodeTxOuts nBlockHeight blockReward, out ∈ vout := by
    rw [isBlockPayeeValid_iff, triggered, isTransactionValid_iff, isValidSuperblock_iff_of_best best]
    exact ⟨fun holds => ⟨(holds enabled (nSuperblockStartBlock_le_of_triggered triggered)).1 rfl,
      (holds enabled (nSuperblockStartBlock_le_of_triggered triggered)).2 enforced⟩,
      fun both _ _ => ⟨fun _ => both.1, fun _ => both.2⟩⟩
  rw [Accepts, payee, isValid_iff]
  constructor
  · rintro ⟨valueValid, ⟨_, long, schedule, ⟨_, read, bounded⟩, inOrder⟩, present⟩
    rcases getValueOut_eq_ok_iff.mp read with ⟨nonneg, rfl, money⟩
    refine ⟨nonneg, money, schedule, long, bounded, ?_, inOrder, present⟩
    intro before
    rcases (isBlockValueValid_regular (.inl before) (.inl synced)).mp valueValid with
      ⟨_, readAgain, within⟩
    rw [read] at readAgain
    cases readAgain
    exact within
  · intro passes
    have read := getValueOut_eq_ok_iff.mpr ⟨passes.nonneg, rfl, passes.money⟩
    have valid : superblock.isValid node.params vout nBlockHeight blockReward = .ok true :=
      isValid_iff.mpr ⟨height, passes.long, passes.schedule, ⟨_, read, passes.total⟩, passes.inOrder⟩
    refine ⟨?_, isValid_iff.mp valid, passes.present⟩
    by_cases budgets : node.params.nBudgetPaymentsStartBlock <= nBlockHeight
    · rw [isBlockValueValid_superblock budgets height, triggered]
      refine ⟨_, read, ?_, fun _ _ => (isValidSuperblock_iff_of_best best).mpr valid⟩
      linarith [passes.total, passes.schedule]
    · rw [isBlockValueValid_regular (.inl (not_le.mp budgets)) (.inl synced)]
      exact ⟨_, read, passes.early (not_le.mp budgets)⟩

/-- A node without governance that accepts some coinbase accepts an empty one. -/
theorem accepts_nil_of_disabled (synced : node.isSynced = true)
    (disabled : node.fDisableGovernance = true)
    (triggered : node.paysSuperblock nBlockHeight = true)
    (accepted : node.Accepts vout nBlockHeight blockReward) :
    node.Accepts [] nBlockHeight blockReward := by
  have height := isValidBlockHeight_of_triggered triggered
  have nothing : getValueOut [] = .ok 0 := rfl
  have payee : node.isBlockPayeeValid [] nBlockHeight blockReward = .ok true :=
    isBlockPayeeValid_iff.mpr fun enabled => absurd (enabled.symm.trans disabled) Bool.false_ne_true
  refine ⟨?_, payee⟩
  have sum_nonneg : ∀ actual, getValueOut vout = .ok actual -> 0 <= actual := by
    intro actual read
    rcases getValueOut_eq_ok_iff.mp read with ⟨nonneg, rfl, _⟩
    refine sum_nonneg fun amount listed => ?_
    rcases mem_map.mp listed with ⟨out, member, rfl⟩
    exact nonneg out member
  by_cases budgets : node.params.nBudgetPaymentsStartBlock <= nBlockHeight
  · rcases (isBlockValueValid_superblock budgets height).mp accepted.1 with ⟨actual, read, within, _⟩
    exact (isBlockValueValid_superblock budgets height).mpr
      ⟨0, nothing, le_trans (sum_nonneg actual read) within,
        fun _ enabled => absurd (enabled.symm.trans disabled) Bool.false_ne_true⟩
  · have before := not_le.mp budgets
    rcases (isBlockValueValid_regular (.inl before) (.inl synced)).mp accepted.1 with
      ⟨actual, read, within⟩
    exact (isBlockValueValid_regular (.inl before) (.inl synced)).mpr
      ⟨0, nothing, le_trans (sum_nonneg actual read) within⟩

/-! ## Outputs that stand for several payments -/

/-- The fewest outputs that pass, filled up with outputs nobody expects. -/
def fewestOutputs (node : PaymentNode Hash) (superblock : CSuperblock) (nBlockHeight : Int)
    (blockReward : CAmount) (unused : CScript) : List CTxOut :=
  leastFound superblock.outputs (node.masternodeTxOuts nBlockHeight blockReward) ++
    List.replicate superblock.vecPayments.length ⟨0, unused⟩

/-- Where some coinbase passes, the fewest outputs do. -/
theorem passes_fewestOutputs {unused : CScript}
    (passes : node.Passes superblock vout nBlockHeight blockReward) :
    node.Passes superblock (node.fewestOutputs superblock nBlockHeight blockReward unused) nBlockHeight
      blockReward := by
  have part := leastFound_subperm passes.inOrder passes.present
  have sum_le : ((node.fewestOutputs superblock nBlockHeight blockReward unused).map nValue).sum <=
    (vout.map nValue).sum := by
    rcases part with ⟨_, same, sublist⟩
    rcases sublist.exists_perm_append with ⟨rest, split⟩
    have perm := split.trans (same.append_right rest)
    have rest_nonneg : 0 <= (rest.map nValue).sum := by
      refine sum_nonneg fun amount listed => ?_
      rcases mem_map.mp listed with ⟨out, member, rfl⟩
      exact passes.nonneg out (perm.mem_iff.mpr (mem_append_right _ member))
    rw [(perm.map nValue).sum_eq, fewestOutputs, map_append, map_append,
      sum_append, sum_append, map_replicate, sum_replicate, nsmul_zero]
    linarith
  constructor
  · intro out member
    rcases mem_append.mp member with found | filled
    · exact passes.nonneg out (part.subset found)
    · rw [eq_of_mem_replicate filled]
  · exact le_trans sum_le passes.money
  · exact passes.schedule
  · rw [fewestOutputs, length_append, length_replicate]
    omega
  · exact le_trans sum_le passes.total
  · exact fun before => le_trans sum_le (passes.early before)
  · exact foundInOrder_leastFound _ _ _
  · exact fun out member => mem_append_left _ (mem_leastFound member)

end

/-! ## The payments of a superblock -/

/-- A superblock that pays one coin to the same script twice. -/
def twiceSuperblock : CSuperblock where
  nBlockHeight := 4224
  vecPayments := [⟨Evo.samplePayScript 8, COIN⟩, ⟨Evo.samplePayScript 8, COIN⟩]
  nonempty := by simp
  moneyRange_nAmount := by decide

/-- One output for both payments; the miner takes the other coin. -/
def shortCoinbase : List CTxOut :=
  [⟨getBlockSubsidy 4223 - 7000000 + COIN, Evo.samplePayScript 5⟩, ⟨7000000, Evo.samplePayScript 3⟩,
    ⟨COIN, Evo.samplePayScript 8⟩]

/-- Where a superblock is triggered and some coinbase is accepted, every accepted coinbase pays
everyone exactly if governance is enabled and no payments coincide. -/
theorem accepted_pays_everyone_iff (node : PaymentNode Hash) (superblock : CSuperblock)
    (nBlockHeight : Int) (blockReward : CAmount) (synced : node.isSynced = true)
    (enabled : node.areSuperblocksEnabled = true)
    (enforced : node.params.dip0003EnforcementHeight <= nBlockHeight)
    (triggered : node.isSuperblockTriggered nBlockHeight = true)
    (best : node.getBestSuperblock nBlockHeight = some superblock)
    (possible : ∃ vout, node.Accepts vout nBlockHeight blockReward) :
    (∀ vout, node.Accepts vout nBlockHeight blockReward ->
      node.PaysEveryone superblock vout nBlockHeight blockReward) <->
      node.fDisableGovernance = false /\ node.PaymentsDiffer superblock nBlockHeight blockReward := by
  have both : node.paysSuperblock nBlockHeight = true := by
    rw [paysSuperblock, enabled, triggered]
    rfl
  rcases possible with ⟨some, accepted⟩
  constructor
  · intro paid
    have governance : node.fDisableGovernance = false := by
      by_contra disabled
      rw [Bool.not_eq_false] at disabled
      -- The empty coinbase is accepted, and the schedule is not empty.
      rcases paid [] (accepts_nil_of_disabled synced disabled both accepted) with ⟨assignment, _⟩
      have part := (nonempty_assignment_iff.mp ⟨assignment⟩).length_le
      have payments := length_pos_iff.mpr superblock.nonempty
      rw [expectedOutputs, length_append, outputs, length_map, length_nil] at part
      omega
    refine ⟨governance, ?_⟩
    by_contra coincide
    rcases Infinite.exists_notMem_finset
      ((node.expectedOutputs superblock nBlockHeight blockReward).map scriptPubKey).toFinset with
      ⟨unused, fresh⟩
    have unexpected : ⟨0, unused⟩ ∉ node.expectedOutputs superblock nBlockHeight blockReward := by
      intro member
      exact fresh (mem_toFinset.mpr (mem_map.mpr ⟨_, member, rfl⟩))
    have passes := (accepts_iff_passes synced governance enforced both best).mp accepted
    rcases paid _ ((accepts_iff_passes synced governance enforced both best).mpr
      (passes_fewestOutputs passes)) with ⟨assignment, _⟩
    have part := nonempty_assignment_iff.mp ⟨assignment⟩
    have without : (node.expectedOutputs superblock nBlockHeight blockReward).Subperm
        (leastFound superblock.outputs (node.masternodeTxOuts nBlockHeight blockReward)) := by
      rw [subperm_ext_iff] at part ⊢
      intro out member
      have count := part out member
      have other : out ≠ ⟨0, unused⟩ := fun same => unexpected (same ▸ member)
      rw [fewestOutputs, count_append, count_replicate, if_neg (by simpa using other.symm)] at count
      exact count
    exact not_lt.mpr without.length_le (length_leastFound_lt coincide)
  · rintro ⟨governance, differ⟩ vout acceptedToo
    have passes := (accepts_iff_passes synced governance enforced both best).mp acceptedToo
    have part : (node.expectedOutputs superblock nBlockHeight blockReward).Subperm vout :=
      subperm_append passes.inOrder passes.present differ.1 differ.2.1 differ.2.2
    rcases nonempty_assignment_iff.mpr part with ⟨assignment⟩
    refine ⟨assignment, ?_⟩
    rw [assignment.sum_unassigned nValue, expectedOutputs, map_append, sum_append,
      superblock.sum_outputs]
    linarith [passes.total]

/-- The template for a superblock with a single payment, other than that to the masternode. -/
theorem accepted_pays_everyone_modest : modestNode.PaysEveryone (sampleSuperblock COIN (by decide))
      (modestNode.template 4224 (getBlockSubsidy 4223) []) 4224 (getBlockSubsidy 4223) := by
  have accepted : modestNode.Accepts (modestNode.template 4224 (getBlockSubsidy 4223) []) 4224
    (getBlockSubsidy 4223) :=
    ⟨by decide +kernel, by decide +kernel⟩
  refine (accepted_pays_everyone_iff modestNode (sampleSuperblock COIN (by decide)) 4224
    (getBlockSubsidy 4223) rfl rfl (by decide) (by decide +kernel) rfl ⟨_, accepted⟩).mpr
    ⟨rfl, isChain_singleton _, by decide +kernel, ?_⟩ _ accepted
  change [(⟨COIN, Evo.samplePayScript 8⟩ : CTxOut)].Disjoint _
  rw [singleton_disjoint]
  decide +kernel

/-- The coinbase with one output for two payments is accepted. -/
theorem shortCoinbase_accepted : (sampleNode twiceSuperblock).isSuperblockTriggered 4224 = true /\
      (sampleNode twiceSuperblock).getBestSuperblock 4224 = some twiceSuperblock /\
      (sampleNode twiceSuperblock).Accepts shortCoinbase 4224 (getBlockSubsidy 4223) /\
      ¬ (sampleNode twiceSuperblock).PaysEveryone twiceSuperblock shortCoinbase 4224
        (getBlockSubsidy 4223) := by
  refine ⟨by decide +kernel, rfl, ⟨by decide +kernel, by decide +kernel⟩, ?_⟩
  rintro ⟨assignment, _⟩
  have part := (nonempty_assignment_iff.mp ⟨assignment⟩).count_le ⟨COIN, Evo.samplePayScript 8⟩
  revert part
  decide +kernel

end PaymentNode
end StakeCubeCoin.Masternode
