import StakeCubeCoin.Evo.PropertyExchange

namespace StakeCubeCoin.Evo

open Primitives Library.Registry CDeterministicMNList List CBLSLazyPublicKey AList Library

/-!
# The representation invariant of the masternode list

The masternode map determines the two other maps: internal ids point back to the
masternodes that carry them, and the registry holds the unique properties of the
listed masternodes, each claimed once, and nothing else.

The invariant is shown for each call from the exchange it makes, then for loops of
calls inside `ApplyDiff`, and then for whole runs.  Calls that throw are included:
they restore the registry before the exception leaves them.
-/

variable {Hash : Type} [DecidableEq Hash] (prim : Primitive Hash)

/-- The masternode map determines the two other maps: each internal id leads to its masternode, and
each hash of a unique property to the one that holds it. -/
structure Represented (list : CDeterministicMNList Hash) : Prop where
  keyed : ∀ proTxHash dmn, list.mnMap.lookup proTxHash = some dmn -> dmn.proTxHash = proTxHash
  ids : ∀ id proTxHash, list.mnInternalIdMap.lookup id = some proTxHash <->
    ∃ dmn, list.mnMap.lookup proTxHash = some dmn /\ dmn.internalId = id
  single : Single list.mnUniquePropertyMap
  owners : ∀ hash proTxHash, owner list.mnUniquePropertyMap hash = some proTxHash <->
    ∃ dmn, list.mnMap.lookup proTxHash = some dmn /\
      ∃ property, Holds prim dmn property /\ prim.serializeHash property = hash
  keys : ∀ proTxHash dmn, list.mnMap.lookup proTxHash = some dmn ->
    OperatorKeyOk prim dmn.pdmnState.pubKeyOperator

theorem represented_empty (blockHash : Uint256) (nHeight : Int) (nTotalRegisteredCount : Nat) :
    Represented prim { blockHash, nHeight, nTotalRegisteredCount } where
  keyed := by simp
  ids := by simp
  single := Registry.single_empty
  owners := by simp [Registry.owner_empty]
  keys := by simp

variable {prim} {list : CDeterministicMNList Hash}

theorem Represented.of_same_maps {other : CDeterministicMNList Hash}
    (represented : Represented prim list) (sameMap : other.mnMap = list.mnMap)
    (sameIds : other.mnInternalIdMap = list.mnInternalIdMap)
    (sameProperties : other.mnUniquePropertyMap = list.mnUniquePropertyMap) :
    Represented prim other where
  keyed := by rw [sameMap]; exact represented.keyed
  ids := by rw [sameMap, sameIds]; exact represented.ids
  single := by rw [sameProperties]; exact represented.single
  owners := by rw [sameMap, sameProperties]; exact represented.owners
  keys := by rw [sameMap]; exact represented.keys

variable {dmn : CDeterministicMN} {proTxHash : Uint256}

theorem Represented.held_iff (represented : Represented prim list)
    (listed : list.mnMap.lookup proTxHash = some dmn) (hash : Hash) :
    owner list.mnUniquePropertyMap hash = some proTxHash <->
      ∃ property, Holds prim dmn property /\ prim.serializeHash property = hash := by
  rw [represented.owners]
  constructor
  · rintro ⟨_, located, holds⟩
    rw [listed, Option.some.injEq] at located
    rw [located]
    exact holds
  · intro holds
    exact ⟨dmn, listed, holds⟩

theorem Represented.unlisted_iff (represented : Represented prim list)
    (unlisted : list.mnMap.lookup proTxHash = none) (hash : Hash) :
    owner list.mnUniquePropertyMap hash = some proTxHash <->
      ∃ property : UniqueProperty, False /\ prim.serializeHash property = hash := by
  rw [represented.owners]
  constructor
  · rintro ⟨_, located, _⟩
    rw [unlisted] at located
    cases located
  · rintro ⟨_, impossible, _⟩
    exact impossible.elim

variable {properties : MnUniquePropertyMap Hash}

/-- The four steps of `AddMN` or `RemoveMN`, with an operation for each. -/
def fourSteps (steps : List (PropertyStep Hash)) (op : UniqueProperty -> Op UniqueProperty)
    (dmn : CDeterministicMN) : List (PropertyStep Hash × List (Op UniqueProperty)) :=
  steps.zip [[op (.collateralOutpoint dmn.collateralOutpoint)], [op (.addr dmn.pdmnState.addr)],
    [op (.keyIDOwner dmn.pdmnState.keyIDOwner)], [op (.pubKeyOperator dmn.pdmnState.pubKeyOperator)]]

variable {next : MnUniquePropertyMap Hash}

/-- Changing all unique properties of a masternode succeeds exactly if it has a collateral and an
owner key and the operations can be performed. -/
theorem attempt_fourSteps
    {change : UniqueProperty -> MnUniquePropertyMap Hash -> Bool × MnUniquePropertyMap Hash}
    {op : UniqueProperty -> Op UniqueProperty} (keyed : ∀ property, (op property).key = property)
    (realized : ∀ property properties next, change property properties = (true, next) <->
      property.isNull = false /\ perform dmn.proTxHash properties [hashOp prim (op property)] = some next)
    {steps : List (PropertyStep Hash)} {first second third fourth : MNListError}
    (shape : steps = [⟨true, change (.collateralOutpoint dmn.collateralOutpoint), first⟩,
      ⟨dmn.pdmnState.addr != CService.null, change (.addr dmn.pdmnState.addr), second⟩,
      ⟨true, change (.keyIDOwner dmn.pdmnState.keyIDOwner), third⟩,
      ⟨isValid prim.fromBytes dmn.pdmnState.pubKeyOperator,
        change (.pubKeyOperator dmn.pdmnState.pubKeyOperator), fourth⟩]) :
    attempt steps properties = (none, next) <->
      (dmn.collateralOutpoint.isNull = false /\ dmn.pdmnState.keyIDOwner ≠ 0) /\
        perform dmn.proTxHash properties (((uniqueProperties prim dmn).map op).map (hashOp prim)) = some next := by
  have each : ∀ item ∈ fourSteps steps op dmn, ∀ properties next,
      item.1.change properties = (true, next) <-> (∀ op ∈ item.2, op.key.isNull = false) /\
        perform dmn.proTxHash properties (item.2.map (hashOp prim)) = some next := by
    intro item member
    simp only [fourSteps, shape, zip_cons_cons, zip_nil_right, mem_cons, not_mem_nil, or_false] at member
    rcases member with same | same | same | same <;> subst same <;> simpa [keyed] using realized _
  have attempted := @attempt_iff _ _ prim _ _ (fourSteps steps op dmn) each properties next
  have valid : isValid prim.fromBytes dmn.pdmnState.pubKeyOperator = true ->
      dmn.pdmnState.pubKeyOperator ≠ null := by
    intro valid null
    rw [null] at valid
    cases valid
  have present : (∀ item ∈ fourSteps steps op dmn, item.1.enabled = true ->
      ∀ op ∈ item.2, op.key.isNull = false) <->
        dmn.collateralOutpoint.isNull = false /\ dmn.pdmnState.keyIDOwner ≠ 0 := by
    simpa [fourSteps, shape, keyed, UniqueProperty.isNull] using fun _ _ => valid
  rw [present, show (fourSteps steps op dmn).map Prod.fst = steps by rw [shape]; rfl] at attempted
  rw [attempted]
  refine and_congr_right fun both => ?_
  have ops : enabledOps (fourSteps steps op dmn) = (uniqueProperties prim dmn).map op := by
    simp only [uniqueProperties, enabledOps, fourSteps, shape, zip_cons_cons, zip_nil_right,
      flatMap_cons, flatMap_nil, if_true, bne_iff_ne, ne_eq, if_neg both.2, map_append,
      append_nil]
    split <;> split <;> simp_all
  rw [ops]

variable (prim) in
theorem attempt_addSteps : attempt (addSteps prim dmn) properties = (none, next) <->
    (dmn.collateralOutpoint.isNull = false /\ dmn.pdmnState.keyIDOwner ≠ 0) /\
      perform dmn.proTxHash properties (((uniqueProperties prim dmn).map Op.claim).map (hashOp prim)) = some next :=
  attempt_fourSteps (fun _ => rfl) (fun _ _ _ => addUniqueProperty_iff prim) rfl

variable (prim) in
theorem attempt_removeSteps : attempt (removeSteps prim dmn) properties = (none, next) <->
    (dmn.collateralOutpoint.isNull = false /\ dmn.pdmnState.keyIDOwner ≠ 0) /\
      perform dmn.proTxHash properties (((uniqueProperties prim dmn).map Op.release).map (hashOp prim)) = some next :=
  attempt_fourSteps (fun _ => rfl) (fun _ _ _ => deleteUniqueProperty_iff prim) rfl

/-- `UpdateMN` exchanges what differs between the two states. -/
theorem attempt_updateSteps {oldState newState : CDeterministicMNState} :
    attempt (updateSteps prim proTxHash oldState newState) properties = (none, next) <->
      perform proTxHash properties ((updateAllOps oldState newState).map (hashOp prim)) = some next := by
  have attempted := @attempt_iff _ _ prim proTxHash (fun _ => True)
    ((updateSteps prim proTxHash oldState newState).zip
      [updateOps (.addr oldState.addr) (.addr newState.addr),
        updateOps (.keyIDOwner oldState.keyIDOwner) (.keyIDOwner newState.keyIDOwner),
        updateOps (.pubKeyOperator oldState.pubKeyOperator) (.pubKeyOperator newState.pubKeyOperator)]) (by
    intro item member
    simp only [updateSteps, zip_cons_cons, zip_nil_right, mem_cons, not_mem_nil, or_false] at member
    rcases member with shape | shape | shape <;> subst shape <;>
      simpa using fun _ _ => updateUniqueProperty_iff prim) properties next
  simpa [enabledOps, updateAllOps, updateSteps] using attempted

variable (injective : Function.Injective prim.serializeHash)

section

variable (represented : Represented prim list)

include injective represented

/-- A call that exchanges what is listed under one hash, with its properties and its id. -/
theorem Represented.exchange {after : CDeterministicMNList Hash} {value : Option CDeterministicMN}
    {held wanted : UniqueProperty -> Prop} {ops : List (Op UniqueProperty)}
    (here : after.mnMap.lookup proTxHash = value)
    (others : ∀ other ≠ proTxHash, after.mnMap.lookup other = list.mnMap.lookup other)
    (valueOk : ∀ dmn, value = some dmn ->
      dmn.proTxHash = proTxHash /\ OperatorKeyOk prim dmn.pdmnState.pubKeyOperator)
    (isWanted : ∀ property, wanted property <-> ∃ dmn, value = some dmn /\ Holds prim dmn property)
    (exchanges : Exchanges held wanted ops)
    (before : ∀ hash, owner list.mnUniquePropertyMap hash = some proTxHash <->
      ∃ property, held property /\ prim.serializeHash property = hash)
    (performed : perform proTxHash list.mnUniquePropertyMap (ops.map (hashOp prim)) =
      some after.mnUniquePropertyMap)
    (ids : ∀ id other, after.mnInternalIdMap.lookup id = some other <->
      (other ≠ proTxHash /\ list.mnInternalIdMap.lookup id = some other) \/
      (other = proTxHash /\ ∃ dmn, value = some dmn /\ dmn.internalId = id)) :
    Represented prim after := by
  rcases owner_after_exchange prim injective exchanges represented.single before performed with
    ⟨single, exchanged⟩
  have merged : ∀ (other : Uint256) (property : CDeterministicMN -> Prop),
    ((other ≠ proTxHash /\ ∃ dmn, list.mnMap.lookup other = some dmn /\ property dmn) \/
      (other = proTxHash /\ ∃ dmn, value = some dmn /\ property dmn)) <->
      ∃ dmn, after.mnMap.lookup other = some dmn /\ property dmn := by
    intro other property
    by_cases same : other = proTxHash
    · rw [same, here]
      simp
    · rw [others other same]
      simp [same]
  have either : ∀ other dmn, after.mnMap.lookup other = some dmn ->
    list.mnMap.lookup other = some dmn \/ other = proTxHash /\ value = some dmn := by
    intro other dmn located
    by_cases same : other = proTxHash
    · rw [same, here] at located
      exact .inr ⟨same, located⟩
    · rw [others other same] at located
      exact .inl located
  refine ⟨?_, ?_, single, ?_, ?_⟩
  · intro other dmn located
    rcases either other dmn located with old | ⟨same, new⟩
    · exact represented.keyed other dmn old
    · rw [same]
      exact (valueOk dmn new).1
  · intro id other
    rw [ids, represented.ids]
    exact merged other _
  · intro hash holder
    rw [exchanged, represented.owners, <- merged]
    refine or_congr_right (and_congr_right fun _ => ?_)
    simp only [isWanted]
    constructor
    · rintro ⟨property, ⟨dmn, new, holds⟩, hashed⟩
      exact ⟨dmn, new, property, holds, hashed⟩
    · rintro ⟨dmn, new, property, holds, hashed⟩
      exact ⟨property, ⟨dmn, new, holds⟩, hashed⟩
  · intro other dmn located
    rcases either other dmn located with old | ⟨_, new⟩
    · exact represented.keys other dmn old
    · exact (valueOk dmn new).2

theorem Represented.addMN (dmn : CDeterministicMN) (fBumpTotalCount : Bool)
    (keyOk : OperatorKeyOk prim dmn.pdmnState.pubKeyOperator) :
    Represented prim (list.addMN prim dmn fBumpTotalCount).2 := by
  unfold CDeterministicMNList.addMN
  split
  · exact represented
  next notListed =>
  split
  · exact represented
  split
  · exact represented
  next freshId =>
  split
  · exact represented
  next _ attempted =>
  rw [Bool.not_eq_true, Option.isSome_eq_false_iff, Option.isNone_iff_eq_none] at notListed freshId
  refine represented.exchange injective (lookup_insert _)
    (fun other different => lookup_insert_ne different) ?_ (by simp) (exchanges_add prim dmn)
    (represented.unlisted_iff notListed) ((attempt_addSteps prim).mp attempted).2 ?_
  · intro found same
    cases same
    exact ⟨rfl, keyOk⟩
  intro id other
  by_cases sameId : id = dmn.internalId
  · rw [sameId, lookup_insert, freshId]
    simp [eq_comm]
  rw [lookup_insert_ne sameId]
  by_cases same : other = dmn.proTxHash
  · rw [same, represented.ids, notListed]
    simp [Ne.symm sameId]
  · simp [same]

theorem Represented.updateDmn {oldDmn : CDeterministicMN}
    (listed : list.mnMap.lookup oldDmn.proTxHash = some oldDmn) (pdmnState : CDeterministicMNState)
    (keyOk : OperatorKeyOk prim pdmnState.pubKeyOperator) :
    Represented prim (list.updateDmn prim oldDmn pdmnState).2 := by
  simp only [CDeterministicMNList.updateDmn]
  split
  · exact represented
  next _ attempted =>
  refine represented.exchange injective (lookup_insert _)
    (fun other different => lookup_insert_ne different) ?_ (by simp)
    (exchanges_update prim oldDmn pdmnState (represented.keys _ _ listed) keyOk)
    (represented.held_iff listed) (attempt_updateSteps.mp attempted) ?_
  · intro found same
    cases same
    exact ⟨rfl, keyOk⟩
  intro id other
  by_cases same : other = oldDmn.proTxHash
  · rw [same, represented.ids, listed]
    simp
  · simp [same]

variable (proTxHash : Uint256)

theorem Represented.removeMN : Represented prim (list.removeMN prim proTxHash).2 := by
  unfold CDeterministicMNList.removeMN
  split
  · exact represented
  next dmn listed =>
  have sameHash := represented.keyed proTxHash dmn listed
  subst sameHash
  change list.mnMap.lookup dmn.proTxHash = some dmn at listed
  split
  · exact represented
  next _ attempted =>
  split
  · exact represented
  refine represented.exchange injective (lookup_erase ..)
    (fun other different => lookup_erase_ne different) nofun (by simp) (exchanges_remove prim dmn)
    (represented.held_iff listed) ((attempt_removeSteps prim).mp attempted).2 ?_
  intro id other
  have pointed := (represented.ids dmn.internalId dmn.proTxHash).mpr ⟨dmn, listed, rfl⟩
  by_cases sameId : id = dmn.internalId
  · -- Two masternodes cannot carry the same id, since the id map is a function.
    rw [sameId, lookup_erase, pointed]
    simp [eq_comm]
  rw [lookup_erase_ne sameId]
  by_cases same : other = dmn.proTxHash
  · rw [same, represented.ids, listed]
    simp [Ne.symm sameId]
  · simp [same]

theorem Represented.updateMN (pdmnState : CDeterministicMNState)
    (keyOk : OperatorKeyOk prim pdmnState.pubKeyOperator) :
    Represented prim (list.updateMN prim proTxHash pdmnState).2 := by
  unfold CDeterministicMNList.updateMN
  split
  · exact represented
  · next oldDmn listed =>
    have sameHash := represented.keyed proTxHash oldDmn listed
    subst sameHash
    exact represented.updateDmn injective listed pdmnState keyOk

theorem Represented.poSePunish (penalty : Int) :
    Represented prim (list.poSePunish prim proTxHash penalty).2 := by
  unfold CDeterministicMNList.poSePunish
  split
  · exact represented
  split
  · exact represented
  next dmn listed =>
  have keyOk := represented.keys proTxHash dmn listed
  apply represented.updateMN injective
  -- Punishing does not touch the operator key.
  split
  · simp only [CDeterministicMNState.banIfNotBanned]
    split <;> exact keyOk
  · exact keyOk

theorem Represented.poSeDecrease : Represented prim (list.poSeDecrease prim proTxHash).2 := by
  unfold CDeterministicMNList.poSeDecrease
  split
  · exact represented
  next dmn listed =>
  split
  · exact represented.updateMN injective proTxHash _ (represented.keys proTxHash dmn listed)
  · exact represented

end

theorem Represented.forEach {α : Type} (body : CDeterministicMNList Hash -> α -> Outcome Hash)
    (items : List α)
    (round : ∀ list item, item ∈ items -> Represented prim list -> Represented prim (body list item).2) :
    ∀ {list : CDeterministicMNList Hash}, Represented prim list ->
      Represented prim (forEach body items list).2 := by
  induction items with
  | nil =>
    intro list represented
    exact represented
  | cons item rest ih =>
    intro list represented
    have after := round list item (.head _) represented
    have restRound : ∀ list other, other ∈ rest -> Represented prim list ->
      Represented prim (body list other).2 :=
      fun list other member => round list other (.tail _ member)
    unfold CDeterministicMNList.forEach
    split
    · next _ left result =>
      rw [result] at after
      exact after
    · next left result =>
      rw [result] at after
      exact ih restRound after

/-- Every operator key that a diff brings in is null or valid. -/
def DiffOk (prim : Primitive Hash) (diff : CDeterministicMNList.Diff) : Prop :=
  (∀ dmn ∈ diff.addedMNs, OperatorKeyOk prim dmn.pdmnState.pubKeyOperator) /\
    ∀ update ∈ diff.updatedMNs, OperatorKeyOk prim update.2.state.pubKeyOperator

include injective in
theorem Represented.applyDiff (represented : Represented prim list) (blockHash : Uint256)
    (nHeight : Int) (diff : Diff) (diffOk : DiffOk prim diff) :
    Represented prim (list.applyDiff prim blockHash nHeight diff).2 := by
  have renamed : Represented prim { list with blockHash, nHeight } :=
    represented.of_same_maps rfl rfl rfl
  have removedAll := Represented.forEach (removeById prim) diff.removedMns (by
      intro current id _ currentOk
      unfold removeById
      split
      · exact currentOk
      · exact currentOk.removeMN injective _) renamed
  unfold CDeterministicMNList.applyDiff
  dsimp only
  split
  · exact represented
  next _ removing =>
  rw [removing] at removedAll
  have addedAll := Represented.forEach
    (fun current dmn => CDeterministicMNList.addMN prim current dmn) diff.addedMNs (by
      intro current dmn member currentOk
      exact currentOk.addMN injective dmn true (diffOk.1 dmn member)) removedAll
  split
  · exact represented
  next _ adding =>
  rw [adding] at addedAll
  have updatedAll := Represented.forEach (updateById prim) diff.updatedMNs (by
      intro current update member currentOk
      unfold updateById
      split
      · exact currentOk
      next dmn found =>
      unfold getMNByInternalId at found
      split at found
      · cases found
      next proTxHash _ =>
      have listed := found
      rw [<- currentOk.keyed proTxHash dmn found] at listed
      exact currentOk.updateDmn injective listed _
        (by
          simp only [CDeterministicMNStateDiff.applyToState]
          split
          · exact diffOk.2 update member
          · exact currentOk.keys _ _ listed)) addedAll
  split
  · exact represented
  next _ updating =>
  rw [updating] at updatedAll
  exact updatedAll

/-- A mutating call on a list. -/
inductive Call where
  | addMN (dmn : CDeterministicMN) (fBumpTotalCount : Bool)
  | updateMN (proTxHash : Uint256) (pdmnState : CDeterministicMNState)
  | removeMN (proTxHash : Uint256)
  | poSePunish (proTxHash : Uint256) (penalty : Int)
  | poSeDecrease (proTxHash : Uint256)
  | applyDiff (blockHash : Uint256) (nHeight : Int) (diff : CDeterministicMNList.Diff)

def execute (prim : Primitive Hash) (list : CDeterministicMNList Hash) : Call -> Outcome Hash
  | .addMN dmn fBumpTotalCount => list.addMN prim dmn fBumpTotalCount
  | .updateMN proTxHash pdmnState => list.updateMN prim proTxHash pdmnState
  | .removeMN proTxHash => list.removeMN prim proTxHash
  | .poSePunish proTxHash penalty => list.poSePunish prim proTxHash penalty
  | .poSeDecrease proTxHash => list.poSeDecrease prim proTxHash
  | .applyDiff blockHash nHeight diff => list.applyDiff prim blockHash nHeight diff

/-- The list after a sequence of calls, whether they throw or not. -/
def runCalls (prim : Primitive Hash) (list : CDeterministicMNList Hash) (calls : List Call) :
    CDeterministicMNList Hash :=
  calls.foldl (fun current call => (execute prim current call).2) list

/-- Every operator key a call brings in is null or valid. -/
def CallOk (prim : Primitive Hash) : Call -> Prop
  | .addMN dmn _ => OperatorKeyOk prim dmn.pdmnState.pubKeyOperator
  | .updateMN _ pdmnState => OperatorKeyOk prim pdmnState.pubKeyOperator
  | .applyDiff _ _ diff => DiffOk prim diff
  | _ => True

include injective in
theorem Represented.execute (represented : Represented prim list)
    (call : Call) (callOk : CallOk prim call) : Represented prim (execute prim list call).2 := by
  cases call with
  | addMN dmn fBumpTotalCount => exact represented.addMN injective dmn fBumpTotalCount callOk
  | updateMN proTxHash pdmnState => exact represented.updateMN injective proTxHash pdmnState callOk
  | removeMN proTxHash => exact represented.removeMN injective proTxHash
  | poSePunish proTxHash penalty => exact represented.poSePunish injective proTxHash penalty
  | poSeDecrease proTxHash => exact represented.poSeDecrease injective proTxHash
  | applyDiff blockHash nHeight diff =>
    exact represented.applyDiff injective blockHash nHeight diff callOk

include injective in
theorem Represented.runCalls (calls : List Call) (callsOk : ∀ call ∈ calls, CallOk prim call) :
    ∀ {list : CDeterministicMNList Hash}, Represented prim list ->
      Represented prim (runCalls prim list calls) := by
  induction calls with
  | nil =>
    intro list represented
    exact represented
  | cons call _ ih =>
    intro list represented
    exact ih (forall_mem_cons.mp callsOk).2 (represented.execute injective call (callsOk call (.head _)))

/-- The representation invariant, in terms of the maps and the masternodes alone: internal ids point
back, and no two masternodes share a property that has to be unique. -/
structure RepresentationInvariant (prim : Primitive Hash) (list : CDeterministicMNList Hash) :
    Prop where
  /-- The internal ids point back to the masternodes that carry them. -/
  internalIds : ∀ id proTxHash, list.mnInternalIdMap.lookup id = some proTxHash <->
    ∃ dmn, list.getMN proTxHash = some dmn /\ dmn.proTxHash = proTxHash /\ dmn.internalId = id
  collateral : ∀ first second one other, list.getMN first = some one ->
    list.getMN second = some other -> one.collateralOutpoint = other.collateralOutpoint ->
    first = second
  address : ∀ first second one other, list.getMN first = some one ->
    list.getMN second = some other -> one.pdmnState.addr = other.pdmnState.addr ->
    one.pdmnState.addr ≠ CService.null -> first = second
  ownerKey : ∀ first second one other, list.getMN first = some one ->
    list.getMN second = some other -> one.pdmnState.keyIDOwner = other.pdmnState.keyIDOwner ->
    one.pdmnState.keyIDOwner ≠ 0 -> first = second
  operatorKey : ∀ first second one other, list.getMN first = some one ->
    list.getMN second = some other ->
    one.pdmnState.pubKeyOperator = other.pdmnState.pubKeyOperator ->
    CBLSLazyPublicKey.isValid prim.fromBytes one.pdmnState.pubKeyOperator = true -> first = second
  /-- The unique properties of the listed masternodes, each once, and nothing else. -/
  entries : ∀ hash entry, list.mnUniquePropertyMap.lookup hash = some entry <->
    ∃ dmn, list.getMN dmn.proTxHash = some dmn /\
      (∃ property ∈ uniqueProperties prim dmn, prim.serializeHash property = hash) /\
      entry = (dmn.proTxHash, 1)

theorem Represented.same_of_holds
    (represented : Represented prim list) {first second : Uint256} {one other : CDeterministicMN}
    (firstListed : list.getMN first = some one) (secondListed : list.getMN second = some other)
    (property : UniqueProperty) (firstHolds : Holds prim one property)
    (secondHolds : Holds prim other property) : first = second := by
  have ownedByFirst := (represented.owners (prim.serializeHash property) first).mpr
    ⟨one, firstListed, property, firstHolds, rfl⟩
  have ownedBySecond := (represented.owners (prim.serializeHash property) second).mpr
    ⟨other, secondListed, property, secondHolds, rfl⟩
  rw [ownedByFirst, Option.some.injEq] at ownedBySecond
  exact ownedBySecond

theorem Represented.representationInvariant
    (represented : Represented prim list) : RepresentationInvariant prim list where
  internalIds := by
    intro id proTxHash
    rw [represented.ids]
    constructor
    · rintro ⟨dmn, listed, sameId⟩
      exact ⟨dmn, listed, represented.keyed proTxHash dmn listed, sameId⟩
    · rintro ⟨dmn, listed, _, sameId⟩
      exact ⟨dmn, listed, sameId⟩
  collateral := by
    intro first second one other firstListed secondListed same
    exact represented.same_of_holds firstListed secondListed
      (.collateralOutpoint one.collateralOutpoint) rfl same
  address := by
    intro first second one other firstListed secondListed same notNull
    exact represented.same_of_holds firstListed secondListed
      (.addr one.pdmnState.addr) ⟨rfl, notNull⟩ ⟨same, notNull⟩
  ownerKey := by
    intro first second one other firstListed secondListed same notNull
    exact represented.same_of_holds firstListed secondListed
      (.keyIDOwner one.pdmnState.keyIDOwner) ⟨rfl, notNull⟩ ⟨same, notNull⟩
  operatorKey := by
    intro first second one other firstListed secondListed same valid
    exact represented.same_of_holds firstListed secondListed
      (.pubKeyOperator one.pdmnState.pubKeyOperator) ⟨rfl, valid⟩ ⟨same, valid⟩
  entries := by
    intro hash entry
    rw [Registry.lookup_eq_some_iff represented.single, represented.owners]
    constructor
    · rintro ⟨⟨dmn, listed, property, holds, hashed⟩, once⟩
      have sameHash := represented.keyed entry.1 dmn listed
      refine ⟨dmn, by rw [sameHash]; exact listed,
        ⟨property, (mem_uniqueProperties_iff prim dmn property).mpr holds, hashed⟩, ?_⟩
      exact Prod.ext sameHash.symm once
    · rintro ⟨dmn, listed, ⟨property, member, hashed⟩, same⟩
      subst same
      exact ⟨⟨dmn, listed, property, (mem_uniqueProperties_iff prim dmn property).mp member,
        hashed⟩, rfl⟩

include injective in
/-- **The representation invariant of the masternode list.**  It holds in every list reached from an
empty one by any calls, whether they throw or not, if property hashes do not collide and operator
keys are null or valid. -/
theorem representationInvariant_runCalls (blockHash : Uint256) (nHeight : Int)
    (nTotalRegisteredCount : Nat) (calls : List Call) (callsOk : ∀ call ∈ calls, CallOk prim call) :
    RepresentationInvariant prim (runCalls prim { blockHash, nHeight, nTotalRegisteredCount } calls) :=
  (Represented.runCalls injective calls callsOk
    (represented_empty prim blockHash nHeight nTotalRegisteredCount)).representationInvariant

/-- Hashes that never collide: a property is its own hash. -/
def samplePrimitive : Primitive UniqueProperty where
  serializeHash := id
  fromBytes := fun _ => true

/-- A masternode with the given number in its id, hash, collateral and owner key. -/
def sampleMN (number : Nat) : CDeterministicMN where
  internalId := number
  proTxHash := BitVec.ofNat 256 number
  collateralOutpoint := ⟨BitVec.ofNat 256 number, 0⟩
  pdmnState := { keyIDOwner := BitVec.ofNat 160 number }

/-- Two registrations, a punishment and a removal. -/
theorem representationInvariant_runCalls_sample :
    RepresentationInvariant samplePrimitive (runCalls samplePrimitive {}
      [.addMN (sampleMN 1) true, .addMN (sampleMN 2) true, .poSePunish 1 5, .removeMN 2]) := by
  apply representationInvariant_runCalls (fun _ _ same => same) 0 (-1) 0
  intro call member
  simp only [mem_cons, not_mem_nil, or_false] at member
  rcases member with shape | shape | shape | shape
  · subst shape
    exact .inl rfl
  · subst shape
    exact .inl rfl
  · subst shape
    exact trivial
  · subst shape
    exact trivial

/-- An update may set the owner key to null.  `UpdateUniqueProperty` then claims none, so two
masternodes can end with a null owner key. -/
theorem null_owner_key_is_shared :
    (∀ call, call ∈ [Call.addMN (sampleMN 1) true, .addMN (sampleMN 2) true,
      .updateMN 1 {}, .updateMN 2 {}] -> CallOk samplePrimitive call) /\
    (let list := runCalls samplePrimitive {}
      [.addMN (sampleMN 1) true, .addMN (sampleMN 2) true, .updateMN 1 {}, .updateMN 2 {}]
    ((list.getMN 1).map fun dmn => dmn.pdmnState.keyIDOwner) = some 0 /\
      ((list.getMN 2).map fun dmn => dmn.pdmnState.keyIDOwner) = some 0 /\
      list.mnUniquePropertyMap.lookup (samplePrimitive.serializeHash (.keyIDOwner 0)) = none) := by
  refine ⟨?_, rfl, rfl, rfl⟩
  intro call member
  simp only [mem_cons, not_mem_nil, or_false] at member
  rcases member with shape | shape | shape | shape <;> subst shape <;> exact .inl rfl

end StakeCubeCoin.Evo
