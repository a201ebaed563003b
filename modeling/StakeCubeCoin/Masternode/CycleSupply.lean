import StakeCubeCoin.Masternode.Templates

namespace StakeCubeCoin.Masternode

open Primitives Governance Validation List ConsensusParams PaymentNode Int

/-!
# What the blocks of a superblock cycle can create

A cycle ends with the only height at which there can be a superblock.  The regular blocks create
their subsidy.  The limit of the superblock comes on top of its own subsidy and is as large as
that of all blocks of the cycle together, because nothing was held back from them.
-/

variable (params : ConsensusParams) (cycle : Nat)

/-- The heights of a cycle.  The first cycle starts with the block after the genesis block. -/
def cycleHeights : List Int :=
  (List.range params.nSuperblockCycle.toNat).map fun (offset : Nat) =>
    cycle * params.nSuperblockCycle + offset + 1

def superblockHeight : Int :=
  (cycle + 1) * params.nSuperblockCycle

/-- The coinbases pass the check of the values, each at a node with the parameters, whatever it
knows, and without fees. -/
def CyclePasses (Hash : Type) [DecidableEq Hash] (params : ConsensusParams) (cycle : Nat)
    (coinbases : Int -> List CTxOut) : Prop :=
  ∀ height ∈ cycleHeights params cycle,
    ∃ node : PaymentNode Hash, node.params = params /\
      node.isBlockValueValid (coinbases height) height (getBlockSubsidy (height - 1)) = .ok .valid

def cycleTotal (coinbases : Int -> List CTxOut) : CAmount :=
  ((cycleHeights params cycle).map fun height => ((coinbases height).map CTxOut.nValue).sum).sum

/-- What the schedule of the subsidy has the blocks of a cycle create. -/
def cycleSubsidy : CAmount :=
  ((cycleHeights params cycle).map fun height => getBlockSubsidy (height - 1)).sum

section

variable {params : ConsensusParams} {cycle : Nat} {height : Int}

theorem mem_cycleHeights_iff : height ∈ cycleHeights params cycle <->
      cycle * params.nSuperblockCycle < height /\ height <= superblockHeight params cycle := by
  have last :
    superblockHeight params cycle = cycle * params.nSuperblockCycle + params.nSuperblockCycle := by
    rw [superblockHeight, add_mul, one_mul]
  rw [cycleHeights, mem_map]
  constructor
  · rintro ⟨_, listed, rfl⟩
    have below := mem_range.mp listed
    omega
  · rintro ⟨_, below⟩
    refine ⟨(height - cycle * params.nSuperblockCycle - 1).toNat, mem_range.mpr ?_, ?_⟩
    · omega
    · omega

theorem superblockHeight_mem : superblockHeight params cycle ∈ cycleHeights params cycle := by
  rw [mem_cycleHeights_iff, superblockHeight, add_mul, one_mul]
  exact ⟨lt_add_of_pos_right _ params.nSuperblockCycle_pos, le_refl _⟩

/-- In a cycle after the start of superblocks, the last height is the one with a superblock. -/
theorem isValidBlockHeight_iff_of_mem
    (after : params.nSuperblockStartBlock <= cycle * params.nSuperblockCycle + 1)
    (listed : height ∈ cycleHeights params cycle) :
    params.isValidBlockHeight height = true <-> height = superblockHeight params cycle := by
  have bounds := mem_cycleHeights_iff.mp listed
  have positive := params.nSuperblockCycle_pos
  have whole : 0 <= (cycle : Int) * params.nSuperblockCycle :=
    mul_nonneg (natCast_nonneg _) (le_of_lt positive)
  rw [isValidBlockHeight, tmod_eq_emod_of_nonneg (by omega), Bool.and_eq_true,
    decide_eq_true_eq, decide_eq_true_eq]
  rw [superblockHeight, add_mul, one_mul] at *
  constructor
  · rintro ⟨_, multiple⟩
    have rest : (height - cycle * params.nSuperblockCycle) % params.nSuperblockCycle = 0 := by
      rw [sub_mul_emod_self_right]
      exact multiple
    have divides := dvd_of_emod_eq_zero rest
    have atLeast := le_of_dvd (by omega) divides
    omega
  · rintro rfl
    refine ⟨by omega, ?_⟩
    rw [add_emod_right, mul_emod_left]

/-! ## The values that pass -/

def idleNode (Hash : Type) [DecidableEq Hash] (params : ConsensusParams) : PaymentNode Hash where
  params := params
  traversal := Evo.Traversal.byHash
  hash160 := fun _ => []
  getListForBlock := fun _ => {}
  getListAtChainTip := {}
  mapTrigger := []
  findGovernanceObject := fun _ => none
  areSuperblocksEnabled := true
  fDisableGovernance := false
  isSynced := false
  nOperatorReward_le := fun _ _ found => absurd found nofun

/-- Coinbases that pay the subsidies, and one unit more at the superblock. -/
def oneUnitMore (params : ConsensusParams) (cycle : Nat) (height : Int) : List CTxOut :=
  [⟨getBlockSubsidy (height - 1) + if height = superblockHeight params cycle then 1 else 0, []⟩]

/-- Where budgets are paid at the superblock, it may create more than its subsidy. -/
theorem passes_oneUnitMore (Hash : Type) [DecidableEq Hash]
    (after : params.nSuperblockStartBlock <= cycle * params.nSuperblockCycle + 1)
    (budgets : params.nBudgetPaymentsStartBlock <= superblockHeight params cycle) :
    CyclePasses Hash params cycle (oneUnitMore params cycle) := by
  intro height listed
  have bounds := mem_cycleHeights_iff.mp listed
  have whole : 0 <= (cycle : Int) * params.nSuperblockCycle :=
    mul_nonneg (natCast_nonneg _) (le_of_lt params.nSuperblockCycle_pos)
  have subsidy := getBlockSubsidy_bounds (height - 1)
  have money : (7500000 : CAmount) * COIN + 1 <= MAX_MONEY := by decide
  have valid := isValidBlockHeight_iff_of_mem after listed
  refine ⟨idleNode Hash params, rfl, ?_⟩
  by_cases last : height = superblockHeight params cycle
  · have read : getValueOut (oneUnitMore params cycle height) = .ok (getBlockSubsidy (height - 1) + 1) := by
      rw [getValueOut_eq_ok_iff, oneUnitMore, if_pos last]
      refine ⟨?_, by simp, by linarith⟩
      intro out member
      rw [mem_singleton.mp member]
      linarith
    have limit : 1 <= params.getPaymentsLimit height := by
      rw [getPaymentsLimit, if_pos (valid.mpr last)]
      exact mul_pos (getBlockSubsidy_pos (by omega)) params.nSuperblockCycle_pos
    rw [isBlockValueValid_superblock (last ▸ budgets) (valid.mpr last)]
    refine ⟨_, read, ?_, nofun⟩
    change getBlockSubsidy (height - 1) + 1 <= getBlockSubsidy (height - 1) + params.getPaymentsLimit height
    linarith
  · have read : getValueOut (oneUnitMore params cycle height) = .ok (getBlockSubsidy (height - 1)) := by
      rw [getValueOut_eq_ok_iff, oneUnitMore, if_neg last]
      refine ⟨?_, by simp, by linarith⟩
      intro out member
      rw [mem_singleton.mp member]
      linarith
    have regular := Bool.eq_false_iff.mpr fun height => last (valid.mp height)
    have started : params.nSuperblockStartBlock <= height := by omega
    rw [isBlockValueValid_regular (.inr regular) (.inr started)]
    exact ⟨_, read, le_refl _⟩

end

/-! ## Cycles that create no extra coins -/

/-- In a cycle after the start of superblocks, coinbases that pass pay no more than the subsidies
exactly if budgets are not yet paid. -/
theorem cycle_creates_subsidies_iff (Hash : Type) [DecidableEq Hash] (params : ConsensusParams)
    (cycle : Nat) (after : params.nSuperblockStartBlock <= cycle * params.nSuperblockCycle + 1) :
    (∀ coinbases, CyclePasses Hash params cycle coinbases ->
      cycleTotal params cycle coinbases <= cycleSubsidy params cycle) <->
      superblockHeight params cycle < params.nBudgetPaymentsStartBlock := by
  constructor
  · intro bounded
    by_contra budgets
    have more := bounded _ (passes_oneUnitMore Hash after (not_lt.mp budgets))
    have less : cycleSubsidy params cycle < cycleTotal params cycle (oneUnitMore params cycle) := by
      refine sum_lt_sum _ _ ?_ ⟨superblockHeight params cycle, superblockHeight_mem, ?_⟩
      · intro height _
        simp only [oneUnitMore, map_cons, map_nil, sum_cons, sum_nil]
        split <;> linarith
      · simp [oneUnitMore]
    exact not_le.mpr less more
  · intro early coinbases passes
    refine sum_le_sum fun height listed => ?_
    have bounds := mem_cycleHeights_iff.mp listed
    rcases passes height listed with ⟨_, rfl, valid⟩
    rw [isBlockValueValid_regular (.inl (by omega)) (.inr (by omega))] at valid
    rcases valid with ⟨_, read, within⟩
    rcases getValueOut_eq_ok_iff.mp read with ⟨_, rfl, _⟩
    exact within

/-- On the main network budgets never start, so that the blocks up to 43200 create no extra
coins. -/
theorem cycle_creates_subsidies_main : superblockHeight main 1 = 43200 /\
      ∀ coinbases, CyclePasses Unit main 1 coinbases ->
        cycleTotal main 1 coinbases <= cycleSubsidy main 1 :=
  ⟨by decide, (cycle_creates_subsidies_iff Unit main 1 (by decide)).mpr (by decide)⟩

/-- Coinbases of the test network that pay the subsidies, and the limit at the superblock. -/
def fullCoinbases (height : Int) : List CTxOut :=
  [⟨getBlockSubsidy (height - 1) + test.getPaymentsLimit height, []⟩]

/-- On the test network, the blocks 4201 to 4224 can create twice what their subsidies are. -/
theorem cycle_creates_twice_test : CyclePasses Unit test 175 fullCoinbases /\
      cycleTotal test 175 fullCoinbases = 48 * (COIN / 10) /\
      cycleSubsidy test 175 = 24 * (COIN / 10) := by
  refine ⟨?_, by decide +kernel, by decide +kernel⟩
  intro height listed
  refine ⟨idleNode Unit test, rfl, ?_⟩
  revert height
  decide +kernel

end StakeCubeCoin.Masternode
