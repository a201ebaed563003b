import StakeCubeCoin.Masternode.Payments

namespace StakeCubeCoin.Masternode
namespace PaymentNode

open Primitives Evo Library Governance Validation List Int

variable {Hash : Type} [DecidableEq Hash] {node : PaymentNode Hash}

/-!
# What the payment checks ask for

The checks in terms of the outputs of the coinbase.  A height that cannot have a superblock
bounds the coinbase by the reward of the block.  At the other heights the bound, the state of
the node and the triggers decide together.
-/

/-! ## The outputs for the masternode -/

/-- Nobody is paid less than one unit, and together the owner and the operator get at most the
share of the masternode. -/
theorem payeeTxOuts_bounds {payee : CDeterministicMN} {masternodeReward : CAmount}
    (share : payee.nOperatorReward <= 10000) (positive : 0 <= masternodeReward) :
    (∀ out ∈ payeeTxOuts payee masternodeReward, 0 < out.nValue) /\
      ((payeeTxOuts payee masternodeReward).map CTxOut.nValue).sum <= masternodeReward := by
  unfold payeeTxOuts
  generalize shares :
    (if payee.nOperatorReward ≠ 0 /\ payee.pdmnState.scriptOperatorPayout ≠ [] then
    (masternodeReward * payee.nOperatorReward).tdiv 10000 else 0) = operatorReward
  have part : 0 <= operatorReward /\ operatorReward <= masternodeReward := by
    subst shares
    split_ifs with _
    · have product : 0 <= masternodeReward * payee.nOperatorReward :=
        mul_nonneg positive (natCast_nonneg _)
      rw [tdiv_eq_ediv_of_nonneg product]
      have upper : masternodeReward * payee.nOperatorReward <= masternodeReward * 10000 :=
        mul_le_mul_of_nonneg_left (ofNat_le.mpr share) positive
      exact ⟨Int.ediv_nonneg product (by decide), Int.ediv_le_of_le_mul (by decide) upper⟩
    · exact ⟨le_refl 0, positive⟩
  constructor
  · intro out member
    rcases mem_append.mp member with owner | operator
    · split at owner
      · next paid => exact mem_singleton.mp owner ▸ paid
      · cases owner
    · split at operator
      · next paid => exact mem_singleton.mp operator ▸ paid
      · cases operator
  · rw [map_append, sum_append]
    split <;> split <;> simp only [map_cons, map_nil, sum_cons, sum_nil] <;>
      linarith

/-- What the checks expect for the masternode, or nothing. -/
def masternodeTxOuts (node : PaymentNode Hash) (nBlockHeight : Int) (blockReward : CAmount) :
    List CTxOut :=
  (node.getBlockTxOuts nBlockHeight blockReward).getD []

theorem masternodeTxOuts_bounds {nBlockHeight : Int} {blockReward : CAmount}
    (positive : 0 <= blockReward) :
    (∀ out ∈ node.masternodeTxOuts nBlockHeight blockReward, 0 < out.nValue) /\
      ((node.masternodeTxOuts nBlockHeight blockReward).map CTxOut.nValue).sum <= blockReward := by
  have reward := getMasternodePayment_bounds nBlockHeight positive
  unfold masternodeTxOuts getBlockTxOuts
  cases payee : (node.getListForBlock (nBlockHeight - 1)).getMNPayee node.traversal with
  | none => exact ⟨nofun, positive⟩
  | some _ =>
    have bounds := payeeTxOuts_bounds (node.nOperatorReward_le _ _ payee) reward.1
    exact ⟨bounds.1, le_trans bounds.2 reward.2⟩

variable {vout : List CTxOut}

theorem findPayees_eq_true_iff {expected : List CTxOut} :
    node.findPayees vout expected = .ok true <-> ∀ out ∈ expected, out ∈ vout := by
  induction expected with
  | nil => exact ⟨nofun, fun _ => rfl⟩
  | cons txout _ ih =>
    rw [findPayees, forall_mem_cons]
    split
    · next found =>
      rw [ih]
      have member : txout ∈ vout := by simpa using found
      simp only [member, true_and]
    · next missing =>
      have absent : txout ∉ vout := by simpa using missing
      split <;> exact ⟨nofun, fun both => absurd both.1 absent⟩

variable {blockReward : CAmount} {nBlockHeight : Int}

/-- From the enforcement of the masternode list on, the coinbase has an output for the
masternode and one for its operator. -/
theorem isTransactionValid_iff :
    node.isTransactionValid vout nBlockHeight blockReward = .ok true <->
      (node.params.dip0003EnforcementHeight <= nBlockHeight ->
        ∀ out ∈ node.masternodeTxOuts nBlockHeight blockReward, out ∈ vout) := by
  unfold isTransactionValid masternodeTxOuts
  split
  · next historic => exact ⟨fun _ enforced => absurd enforced (not_le.mpr historic), fun _ => rfl⟩
  next enforced =>
  cases node.getBlockTxOuts nBlockHeight blockReward with
  | none => exact ⟨nofun, fun _ => rfl⟩
  | some _ =>
    exact findPayees_eq_true_iff.trans ⟨fun each _ => each, fun each => each (not_lt.mp enforced)⟩

theorem checkLimit_eq_valid_iff {actual limit : CAmount} {reason : String} :
    checkLimit nBlockHeight actual limit reason = .valid <-> actual <= limit := by
  unfold checkLimit
  split
  · next within => exact ⟨fun _ => within, fun _ => rfl⟩
  · next exceeded => exact ⟨nofun, fun within => absurd within exceeded⟩

theorem pure_checkLimit_iff {actual limit : CAmount} {reason : String} :
    (pure (checkLimit nBlockHeight actual limit reason) : Throws Verdict) = .ok .valid <->
      actual <= limit := by
  rw [<- checkLimit_eq_valid_iff]
  exact ⟨Except.ok.inj, congrArg Except.ok⟩

/-- Where there can be no superblock, or before budgets, a block creates at most its reward. -/
theorem isBlockValueValid_regular (regular : nBlockHeight < node.params.nBudgetPaymentsStartBlock \/
      node.params.isValidBlockHeight nBlockHeight = false)
    (known : node.isSynced = true \/ node.params.nSuperblockStartBlock <= nBlockHeight) :
    node.isBlockValueValid vout nBlockHeight blockReward = .ok .valid <->
      ∃ actual, getValueOut vout = .ok actual /\ actual <= blockReward := by
  rw [isBlockValueValid, bind_eq_ok_iff]
  refine exists_congr fun actual => and_congr_right fun read => ?_
  by_cases before : nBlockHeight < node.params.nBudgetPaymentsStartBlock
  · rw [if_pos before, pure_checkLimit_iff]
  have height := regular.resolve_left before
  rw [if_neg before]
  by_cases started : nBlockHeight < node.params.nSuperblockStartBlock
  · have synced := known.resolve_right (not_le.mpr started)
    rw [if_pos started, isOldBudgetBlockValueValid, read]
    dsimp only [bind, Except.bind]
    rw [if_neg before, if_neg (not_le.mpr started)]
    split <;> exact pure_checkLimit_iff
  · rw [if_neg started, height]
    exact pure_checkLimit_iff

/-- Where there can be a superblock, its limit bounds the block.  A node that knows the triggers
asks for the superblock if there is one, else for a regular block. -/
theorem isBlockValueValid_superblock
    (budgets : node.params.nBudgetPaymentsStartBlock <= nBlockHeight)
    (height : node.params.isValidBlockHeight nBlockHeight = true) :
    node.isBlockValueValid vout nBlockHeight blockReward = .ok .valid <->
      ∃ actual, getValueOut vout = .ok actual /\
        actual <= blockReward + node.params.getPaymentsLimit nBlockHeight /\
        (node.isSynced = true -> node.fDisableGovernance = false ->
          if node.paysSuperblock nBlockHeight then
            node.isValidSuperblock vout nBlockHeight blockReward = .ok true
          else actual <= blockReward) := by
  have started : node.params.nSuperblockStartBlock <= nBlockHeight := by
    rw [ConsensusParams.isValidBlockHeight, Bool.and_eq_true] at height
    exact of_decide_eq_true height.1
  rw [isBlockValueValid, bind_eq_ok_iff]
  refine exists_congr fun actual => and_congr_right fun _ => ?_
  rw [if_neg (not_lt.mpr budgets), if_neg (not_lt.mpr started), height]
  by_cases within : actual <= blockReward + node.params.getPaymentsLimit nBlockHeight
  · rw [if_neg (not_lt.mpr within)]
    cases node.isSynced with
    | false => exact ⟨fun _ => ⟨within, nofun⟩, fun _ => rfl⟩
    | true =>
      cases node.fDisableGovernance with
      | true => exact ⟨fun _ => ⟨within, fun _ => nofun⟩, fun _ => rfl⟩
      | false =>
        unfold paysSuperblock
        simp only [within, true_and, forall_const]
        cases node.areSuperblocksEnabled with
        | false => exact pure_checkLimit_iff
        | true =>
          cases node.isSuperblockTriggered nBlockHeight with
          | false => exact pure_checkLimit_iff
          | true =>
            change (node.isValidSuperblock vout nBlockHeight blockReward >>= _) = _ <-> _
            rw [bind_eq_ok_iff]
            constructor
            · rintro ⟨valid, checked, accepted⟩
              cases valid with
              | true => exact checked
              | false => cases accepted
            · exact fun checked => ⟨true, checked, rfl⟩
  · rw [if_neg (by decide), if_pos (not_le.mp within), pure_checkLimit_iff]
    exact ⟨fun bounded => absurd bounded within, fun bounded => absurd bounded.1 within⟩

theorem isBlockPayeeValid_iff : node.isBlockPayeeValid vout nBlockHeight blockReward = .ok true <->
      (node.fDisableGovernance = false -> node.params.nSuperblockStartBlock <= nBlockHeight ->
        (node.paysSuperblock nBlockHeight = true ->
          node.isValidSuperblock vout nBlockHeight blockReward = .ok true) /\
        node.isTransactionValid vout nBlockHeight blockReward = .ok true) := by
  unfold isBlockPayeeValid
  cases node.fDisableGovernance with
  | true => exact ⟨fun _ => nofun, fun _ => rfl⟩
  | false =>
    by_cases started : node.params.nSuperblockStartBlock <= nBlockHeight
    · rw [if_neg (not_lt.mpr started)]
      cases node.paysSuperblock nBlockHeight with
      | false => exact ⟨fun valid _ _ => ⟨nofun, valid⟩, fun holds => (holds rfl started).2⟩
      | true =>
        change (node.isValidSuperblock vout nBlockHeight blockReward >>= _) = _ <-> _
        rw [bind_eq_ok_iff]
        constructor
        · rintro ⟨valid, checked, accepted⟩ _ _
          cases valid with
          | true => exact ⟨fun _ => checked, accepted⟩
          | false => cases accepted
        · intro holds
          exact ⟨true, (holds rfl started).1 rfl, (holds rfl started).2⟩
    · rw [if_pos (not_le.mp started)]
      exact ⟨fun _ _ above => absurd above started, fun _ => rfl⟩

end PaymentNode
end StakeCubeCoin.Masternode
