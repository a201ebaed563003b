import StakeCubeCoin.Evo.MNListDiff

namespace StakeCubeCoin.Evo

open Primitives Coins Library Relation CDeterministicMNList ReflTransGen

/-!
# A list is built in steps

`BuildNewListFromBlock` reaches the list after a block by removing, adding and updating single
masternodes.  Each such step is described together with the transaction of the block that it is
made for, and the whole function is shown to be a sequence of steps.  What holds of the new list
is then a matter of what one step does.
-/

section

variable {Hash : Type} [DecidableEq Hash] (env : ProviderEnv Hash) (vtx : List CTransaction)
  (view : CCoinsView)

/-- A transaction of the block, apart from the coinbase, that carries a payload. -/
structure Carries {α : Type} (reader : Reader α) (nType : TxType) (tx : CTransaction) (proTx : α) :
    Prop where
  member : tx ∈ vtx.tail
  special : tx.nVersion = 3
  type : tx.nType = nType
  payload : payloadOf reader tx = .ok proTx

def punishedState (maxPenalty penalty nHeight : Int) (state : CDeterministicMNState) :
    CDeterministicMNState :=
  let newState := { state with nPoSePenalty := min maxPenalty (state.nPoSePenalty + penalty) }
  if newState.nPoSePenalty >= maxPenalty && !newState.isBanned then newState.banIfNotBanned nHeight
  else newState

/-- The ways in which the state of a masternode is altered. -/
inductive Alters (list : CDeterministicMNList Hash) (proTxHash : Uint256)
    (state : CDeterministicMNState) : CDeterministicMNState -> Prop
  | confirm (blockHash : Uint256) :
    Alters list proTxHash state (state.updateConfirmedHash env.sha256 proTxHash blockHash)
  | decrease (positive : 0 < state.nPoSePenalty) :
    Alters list proTxHash state { state with nPoSePenalty := state.nPoSePenalty - 1 }
  | serve (tx : CTransaction) (proTx : CProUpServTx)
    (carries : Carries vtx (CProUpServTx.unserialize env.toPayloadEnv) .providerUpdateService tx proTx)
    (own : proTx.proTxHash = proTxHash) :
    Alters list proTxHash state (servedState env proTx list.nHeight state)
  | update (tx : CTransaction) (proTx : CProUpRegTx)
    (carries : Carries vtx (CProUpRegTx.unserialize env.toPayloadEnv) .providerUpdateRegistrar tx proTx)
    (own : proTx.proTxHash = proTxHash) :
    Alters list proTxHash state (registrarState proTx list.nHeight state)
  | revoke (proTx : CProUpRevTx) :
    Alters list proTxHash state (revokedState proTx list.nHeight state)
  | punish (penalty : Int) (positive : 0 < penalty) :
    Alters list proTxHash state (punishedState list.calcMaxPoSePenalty penalty list.nHeight state)
  | pay : Alters list proTxHash state { state with nLastPaidHeight := list.nHeight }

/-- A step on the way from the list before the block to the list after it. -/
inductive BlockStep : CDeterministicMNList Hash -> CDeterministicMNList Hash -> Prop
  | leave (list after : CDeterministicMNList Hash) (proTxHash : Uint256)
    (removed : list.removeMN env.prim proTxHash = (none, after)) : BlockStep list after
  | join (list after : CDeterministicMNList Hash) (tx : CTransaction) (proTx : CProRegTx)
    (carries : Carries vtx (CProRegTx.unserialize env.toPayloadEnv) .providerRegister tx proTx)
    (funded : proTx.collateralOutpoint.hash.isNull = true \/
      isCollateral (view (collateralOf tx proTx)) = true)
    (added : list.addMN env.prim
      (registeredMN tx proTx list.nTotalRegisteredCount list.nHeight) = (none, after)) :
    BlockStep list after
  | alter (list after : CDeterministicMNList Hash) (proTxHash : Uint256) (dmn : CDeterministicMN)
    (state : CDeterministicMNState) (listed : list.getMN proTxHash = some dmn)
    (alters : Alters env vtx list proTxHash dmn.pdmnState state)
    (updated : list.updateDmn env.prim dmn state = (none, after)) : BlockStep list after

abbrev BlockSteps : CDeterministicMNList Hash -> CDeterministicMNList Hash -> Prop :=
  ReflTransGen (BlockStep env vtx view)

end

/-! ## What calls leave alone -/

section

variable {Hash : Type} [DecidableEq Hash] {prim : Primitive Hash}
  {list after : CDeterministicMNList Hash}

omit [DecidableEq Hash] in
theorem checked_eq_ok_iff {outcome : Outcome Hash} :
    checked outcome = .ok after <-> outcome = (none, after) := by
  rcases outcome with ⟨error, _⟩
  cases error <;> simp [checked]

end

/-! ## Building a list takes steps -/

variable {Hash : Type} [DecidableEq Hash] {env : ProviderEnv Hash} {vtx : List CTransaction}
  {view : CCoinsView} {list after : CDeterministicMNList Hash}

theorem BlockStep.nHeight_eq (step : BlockStep env vtx view list after) :
    after.nHeight = list.nHeight := by
  cases step with
  | leave proTxHash removed => exact (of_removeMN removed).2.1
  | join _ _ _ _ added => exact (of_addMN added).2.1
  | alter proTxHash _ _ _ _ updated => exact (of_updateDmn updated).2.1

theorem BlockSteps.nHeight_eq (steps : BlockSteps env vtx view list after) :
    after.nHeight = list.nHeight := by
  induction steps with
  | refl => rfl
  | tail _ step ih => exact step.nHeight_eq.trans ih

variable {proTxHash : Uint256}

variable {dmn : CDeterministicMN}

/-- An update of a masternode that is there is a step if it is one of the known alterations. -/
theorem BlockSteps.of_updateMN {state : CDeterministicMNState}
    (listed : list.getMN proTxHash = some dmn)
    (alters : Alters env vtx list proTxHash dmn.pdmnState state)
    (updated : list.updateMN env.prim proTxHash state = (none, after)) :
    BlockSteps env vtx view list after := by
  rcases updateMN_eq_ok updated with ⟨_, found, changed⟩
  rw [listed, Option.some.injEq] at found
  subst found
  exact single (.alter list after proTxHash dmn state listed alters changed)

theorem BlockSteps.of_poSeDecrease
    (decreased : list.poSeDecrease env.prim proTxHash = (none, after)) :
    BlockSteps env vtx view list after := by
  unfold poSeDecrease at decreased
  split at decreased
  · cases decreased
  next dmn listed =>
  split at decreased
  · next allowed =>
    have positive : 0 < dmn.pdmnState.nPoSePenalty := by
      rw [Bool.and_eq_true, decide_eq_true_eq] at allowed
      exact allowed.1
    exact BlockSteps.of_updateMN listed (.decrease positive) decreased
  · cases decreased

theorem BlockSteps.of_foldlM {Item : Type}
    {body : CDeterministicMNList Hash -> Item -> Building (CDeterministicMNList Hash)}
    {items : List Item}
    (each : ∀ item state next, item ∈ items -> BlockSteps env vtx view list state ->
      body state item = .ok next -> BlockSteps env vtx view state next)
    (finished : items.foldlM body list = .ok after) : BlockSteps env vtx view list after := by
  have whole := @foldlM_rule _ _ _ body
    (fun rest state => (∀ item ∈ rest, item ∈ items) /\ BlockSteps env vtx view list state) ?_
    items list after ⟨fun _ member => member, refl⟩ finished
  · exact whole.2
  · intro item rest state next holds stepped
    exact ⟨fun other member => holds.1 other (.tail _ member),
      holds.2.trans (each item state next (holds.1 item (.head _)) holds.2 stepped)⟩

/-! ### Before the transactions -/

theorem confirmMN_spec {pindexPrev : IndexEntry} (listed : list.getMN dmn.proTxHash = some dmn)
    (confirmed : confirmMN env pindexPrev list dmn = .ok after) :
    BlockSteps env vtx view list after /\
      ∀ proTxHash ≠ dmn.proTxHash, after.getMN proTxHash = list.getMN proTxHash := by
  unfold confirmMN at confirmed
  split at confirmed
  · cases confirmed
    exact ⟨refl, fun _ _ => rfl⟩
  dsimp only at confirmed
  split at confirmed
  · rw [checked_eq_ok_iff] at confirmed
    refine ⟨BlockSteps.of_updateMN listed (.confirm _) confirmed, ?_⟩
    intro proTxHash different
    rcases updateMN_eq_ok confirmed with ⟨_, found, changed⟩
    rw [listed, Option.some.injEq] at found
    subst found
    rw [(of_updateDmn changed).1, Function.update_of_ne different]
  · cases confirmed
    exact ⟨refl, fun _ _ => rfl⟩

variable {pindexPrev : IndexEntry}

/-- The loop goes over the old list; masternodes that it has not met are as they were. -/
theorem steps_confirm {dmns : List CDeterministicMN}
    (distinct : (dmns.map CDeterministicMN.proTxHash).Nodup)
    (listed : ∀ dmn ∈ dmns, list.getMN dmn.proTxHash = some dmn)
    (finished : dmns.foldlM (confirmMN env pindexPrev) list = .ok after) :
    BlockSteps env vtx view list after := by
  have whole := @foldlM_rule _ _ _ (confirmMN env pindexPrev)
    (fun rest state => BlockSteps env vtx view list state /\ (rest.map CDeterministicMN.proTxHash).Nodup /\
      ∀ dmn ∈ rest, state.getMN dmn.proTxHash = some dmn) ?_
    dmns list after ⟨refl, distinct, listed⟩ finished
  · exact whole.1
  rintro dmn rest state next ⟨sofar, restDistinct, unchanged⟩ stepped
  rw [List.map_cons, List.nodup_cons] at restDistinct
  rcases @confirmMN_spec _ _ env vtx view state next _ _ (unchanged dmn (.head _)) stepped
    with ⟨steps, others⟩
  refine ⟨sofar.trans steps, restDistinct.2, ?_⟩
  intro other member
  have different : other.proTxHash ≠ dmn.proTxHash := by
    intro same
    exact restDistinct.1 (same ▸ List.mem_map_of_mem member)
  rw [others _ different]
  exact unchanged other (.tail _ member)

theorem steps_decrease (decreased : decreasePoSePenalties env list = .ok after) :
    BlockSteps env vtx view list after := by
  refine BlockSteps.of_foldlM ?_ decreased
  intro proTxHash state next _ _ stepped
  exact BlockSteps.of_poSeDecrease (checked_eq_ok_iff.mp stepped)

/-! ### Transactions -/

omit [DecidableEq Hash] in
theorem listedMN_eq_ok_iff : listedMN list proTxHash = .ok dmn <->
    list.getMN proTxHash = some dmn := by
  unfold listedMN
  cases list.getMN proTxHash with
  | none => simp
  | some _ => simp

variable {tx : CTransaction}

section

variable (member : tx ∈ vtx.tail) (special : tx.nVersion = 3)

include member special

theorem steps_processProRegTx (type : tx.nType = .providerRegister)
    (processed : processProRegTx env list.nHeight view list tx = .ok after) :
    BlockSteps env vtx view list after := by
  simp only [processProRegTx, bind_eq_ok_iff, require_eq_ok_iff, Bool.or_eq_true, checked_eq_ok_iff]
    at processed
  rcases processed with ⟨proTx, payload, _, funded, rest, replaced, _, _, _, _, processed⟩
  have earlier : BlockSteps env vtx view list rest /\
    rest.nTotalRegisteredCount = list.nTotalRegisteredCount := by
    unfold removeReplaced at replaced
    split at replaced
    · next _ _ =>
      rw [checked_eq_ok_iff] at replaced
      exact ⟨single (.leave list rest _ replaced), (of_removeMN replaced).2.2⟩
    · cases replaced
      exact ⟨refl, rfl⟩
  rcases earlier with ⟨steps, sameCount⟩
  rw [<- sameCount, <- BlockSteps.nHeight_eq steps] at processed
  exact steps.tail (.join rest after tx proTx ⟨member, special, type, payload⟩ funded processed)

theorem steps_processProUpServTx (type : tx.nType = .providerUpdateService)
    (processed : processProUpServTx env list.nHeight list tx = .ok after) :
    BlockSteps env vtx view list after := by
  simp only [processProUpServTx, bind_eq_ok_iff, listedMN_eq_ok_iff, checked_eq_ok_iff] at processed
  rcases processed with ⟨proTx, payload, _, _, _, _, _, listed, processed⟩
  exact BlockSteps.of_updateMN listed
    (.serve tx proTx ⟨member, special, type, payload⟩ rfl) processed

theorem steps_processProUpRegTx (type : tx.nType = .providerUpdateRegistrar)
    (processed : processProUpRegTx env list.nHeight list tx = .ok after) :
    BlockSteps env vtx view list after := by
  simp only [processProUpRegTx, bind_eq_ok_iff, listedMN_eq_ok_iff, checked_eq_ok_iff] at processed
  rcases processed with ⟨proTx, payload, _, listed, processed⟩
  exact BlockSteps.of_updateMN listed
    (.update tx proTx ⟨member, special, type, payload⟩ rfl) processed

end

theorem steps_processProUpRevTx
    (processed : processProUpRevTx env list.nHeight list tx = .ok after) :
    BlockSteps env vtx view list after := by
  simp only [processProUpRevTx, bind_eq_ok_iff, listedMN_eq_ok_iff, checked_eq_ok_iff] at processed
  rcases processed with ⟨proTx, _, _, listed, processed⟩
  exact BlockSteps.of_updateMN listed (.revoke proTx) processed

theorem steps_processCommitmentTx
    (processed : processCommitmentTx env pindexPrev list tx = .ok after) :
    BlockSteps env vtx view list after := by
  unfold processCommitmentTx at processed
  split at processed
  · cases processed
  split at processed
  · cases processed
    exact refl
  split at processed
  · cases processed
  dsimp only at processed
  split at processed
  · cases processed
  refine BlockSteps.of_foldlM ?_ processed
  intro member state next _ _ stepped
  unfold punishMember at stepped
  split at stepped
  · cases stepped
    exact refl
  split at stepped
  · have punished := checked_eq_ok_iff.mp stepped
    unfold poSePunish at punished
    split at punished
    · cases punished
    split at punished
    · cases punished
    · next _ listed => exact BlockSteps.of_updateMN listed (.punish _ (by omega)) punished
  · cases stepped
    exact refl

theorem steps_processTransaction (height : list.nHeight = pindexPrev.nHeight + 1)
    (member : tx ∈ vtx.tail)
    (processed : processTransaction env pindexPrev view list tx = .ok after) :
    BlockSteps env vtx view list after := by
  unfold processTransaction at processed
  rw [<- height] at processed
  split at processed
  · cases processed
    exact refl
  next notSpecial =>
  have special : tx.nVersion = 3 := not_not.mp notSpecial
  split at processed
  · next type => exact steps_processProRegTx member special type processed
  · next type => exact steps_processProUpServTx member special type processed
  · next type => exact steps_processProUpRegTx member special type processed
  · exact steps_processProUpRevTx processed
  · exact steps_processCommitmentTx processed
  · cases processed
    exact refl

/-! ### After the transactions -/

theorem steps_removeSpent {input : CTxIn} (removed : removeSpent env list input = .ok after) :
    BlockSteps env vtx view list after := by
  unfold removeSpent at removed
  split at removed
  · cases removed
    exact refl
  split at removed
  · exact single (.leave list after _ (checked_eq_ok_iff.mp removed))
  · cases removed
    exact refl

theorem steps_payPayee {payee : Option CDeterministicMN}
    (paid : payPayee env list.nHeight payee list = .ok after) :
    BlockSteps env vtx view list after := by
  unfold payPayee at paid
  split at paid
  · cases paid
    exact refl
  split at paid
  · cases paid
    exact refl
  · next _ listed => exact BlockSteps.of_updateMN listed .pay (checked_eq_ok_iff.mp paid)

def startedList (pindexPrev : IndexEntry) (oldList : CDeterministicMNList Hash) :
    CDeterministicMNList Hash :=
  { oldList with blockHash := 0, nHeight := (pindexPrev.nHeight : Int) + 1 }

variable {oldList newList : CDeterministicMNList Hash} (represented : Represented env.prim oldList)
  (built : buildNewListFromBlock env vtx pindexPrev view oldList = .ok newList)

include represented built

/-- The parts of a successful building: steps up to the end of the transactions, the removal of
what is spent, and the payee. -/
theorem buildNewListFromBlock_parts :
    ∃ processed, ∃ unspent, BlockSteps env vtx view (startedList pindexPrev oldList) processed /\
      (vtx.tail.flatMap CTransaction.vin).foldlM (removeSpent env) processed = .ok unspent /\
      payPayee env ((pindexPrev.nHeight : Int) + 1) (oldList.getMNPayee env.traversal) unspent =
        .ok newList := by
  simp only [buildNewListFromBlock, bind_eq_ok_iff] at built
  rcases built with
    ⟨confirmed, confirming, decreased, decreasing, processed, processing, unspent, removing, paying⟩
  have first : BlockSteps env vtx view (startedList pindexPrev oldList) confirmed :=
    steps_confirm (nodup_forEachMN env.traversal represented)
      (fun dmn member => (mem_forEachMN_iff env.traversal represented).mp member) confirming
  have second := first.trans (steps_decrease decreasing)
  have third : BlockSteps env vtx view decreased processed := by
    refine BlockSteps.of_foldlM ?_ processing
    intro tx state next member sofar stepped
    refine steps_processTransaction ?_ member stepped
    exact BlockSteps.nHeight_eq (second.trans sofar)
  exact ⟨processed, unspent, second.trans third, removing, paying⟩

theorem steps_buildNewListFromBlock :
    BlockSteps env vtx view (startedList pindexPrev oldList) newList := by
  rcases buildNewListFromBlock_parts represented built with
    ⟨processed, unspent, steps, removing, paying⟩
  have removed : BlockSteps env vtx view processed unspent :=
    BlockSteps.of_foldlM (fun _ _ _ _ _ stepped => steps_removeSpent stepped) removing
  have sofar := steps.trans removed
  have height : unspent.nHeight = (pindexPrev.nHeight : Int) + 1 := BlockSteps.nHeight_eq sofar
  rw [<- height] at paying
  exact sofar.trans (steps_payPayee paying)

end StakeCubeCoin.Evo
