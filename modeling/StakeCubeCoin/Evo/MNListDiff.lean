import StakeCubeCoin.Evo.BuildList
import StakeCubeCoin.Evo.ListCalls
import StakeCubeCoin.Library.Ordered

namespace StakeCubeCoin.Evo

open Primitives Library Library.Roster CDeterministicMNList CDeterministicMNStateDiff List
open CDeterministicMN WellFormed Function

/-!
# Differences between masternode lists

`CDeterministicMNStateDiff` of `evo/dmnstate.h` and `CDeterministicMNList::BuildDiff` of
`evo/deterministicmns.cpp`.  A difference names the masternodes that were removed and updated by
their ids, and `ApplyDiff` removes, adds and updates in this order.  It leads from one list to
another when masternodes keep their identity and none that stays hands a property over.
-/

namespace CDeterministicMNStateDiff

variable (a b : CDeterministicMNState)

def ofStates : CDeterministicMNStateDiff where
  fields
    | .nRegisteredHeight => decide (a.nRegisteredHeight ≠ b.nRegisteredHeight)
    | .nLastPaidHeight => decide (a.nLastPaidHeight ≠ b.nLastPaidHeight)
    | .nPoSePenalty => decide (a.nPoSePenalty ≠ b.nPoSePenalty)
    | .nPoSeRevivedHeight => decide (a.nPoSeRevivedHeight ≠ b.nPoSeRevivedHeight)
    | .nPoSeBanHeight => decide (a.nPoSeBanHeight ≠ b.nPoSeBanHeight)
    | .nRevocationReason => decide (a.nRevocationReason ≠ b.nRevocationReason)
    | .confirmedHash => decide (a.confirmedHash ≠ b.confirmedHash)
    | .confirmedHashWithProRegTxHash =>
      decide (a.confirmedHashWithProRegTxHash ≠ b.confirmedHashWithProRegTxHash)
    | .keyIDOwner => decide (a.keyIDOwner ≠ b.keyIDOwner)
    | .pubKeyOperator => decide (a.pubKeyOperator ≠ b.pubKeyOperator)
    | .keyIDVoting => decide (a.keyIDVoting ≠ b.keyIDVoting)
    | .addr => decide (a.addr ≠ b.addr)
    | .scriptPayout => decide (a.scriptPayout ≠ b.scriptPayout)
    | .scriptOperatorPayout => decide (a.scriptOperatorPayout ≠ b.scriptOperatorPayout)
  state :=
    let pick {α : Type} [DecidableEq α] (member : CDeterministicMNState -> α) : α :=
      if member a ≠ member b then member b else member {}
    { nRegisteredHeight := pick (·.nRegisteredHeight)
      nLastPaidHeight := pick (·.nLastPaidHeight)
      nPoSePenalty := pick (·.nPoSePenalty)
      nPoSeRevivedHeight := pick (·.nPoSeRevivedHeight)
      nPoSeBanHeight := pick (·.nPoSeBanHeight)
      nRevocationReason := pick (·.nRevocationReason)
      confirmedHash := pick (·.confirmedHash)
      confirmedHashWithProRegTxHash := pick (·.confirmedHashWithProRegTxHash)
      keyIDOwner := pick (·.keyIDOwner)
      pubKeyOperator := pick (·.pubKeyOperator)
      keyIDVoting := pick (·.keyIDVoting)
      addr := pick (·.addr)
      scriptPayout := pick (·.scriptPayout)
      scriptOperatorPayout := pick (·.scriptOperatorPayout) }

def allFields : List Field :=
  [.nRegisteredHeight, .nLastPaidHeight, .nPoSePenalty, .nPoSeRevivedHeight, .nPoSeBanHeight,
    .nRevocationReason, .confirmedHash, .confirmedHashWithProRegTxHash, .keyIDOwner, .pubKeyOperator,
    .keyIDVoting, .addr, .scriptPayout, .scriptOperatorPayout]

def hasFields (diff : CDeterministicMNStateDiff) : Bool :=
  allFields.any diff.fields

/-- A member that was taken over when it differs is the new one. -/
theorem picked {α : Type} [DecidableEq α] (old new unset : α) :
    (if decide (old ≠ new) = true then if old ≠ new then new else unset else old) = new := by
  by_cases same : old = new
  · simp [same]
  · simp [same]

/-- The difference of two states leads from one to the other. -/
theorem applyToState_ofStates : (ofStates a b).applyToState a = b := by
  simp only [applyToState, ofStates, picked]

theorem eq_of_hasFields_eq_false {a b : CDeterministicMNState}
    (none : (ofStates a b).hasFields = false) : a = b := by
  rcases a with ⟨_, _, _, _, _, _, _, _, _, _, _, _, _, _⟩
  rcases b with ⟨_, _, _, _, _, _, _, _, _, _, _, _, _, _⟩
  simp only [hasFields, allFields, any_cons, any_nil, ofStates, Bool.or_eq_false_iff,
    decide_eq_false_iff_not, ne_eq, Decidable.not_not, and_true] at none
  simp only [CDeterministicMNState.mk.injEq]
  tauto

end CDeterministicMNStateDiff

namespace CDeterministicMNList

variable {Hash : Type} [DecidableEq Hash] (traversal : Traversal)

/-- What `BuildDiff` records for a masternode of the second list that is in the first, too. -/
def updateEntry (list : CDeterministicMNList Hash) (toMN : CDeterministicMN) :
    Option (Nat × CDeterministicMNStateDiff) :=
  (list.getMN toMN.proTxHash).bind fun fromMN =>
    let stateDiff := CDeterministicMNStateDiff.ofStates fromMN.pdmnState toMN.pdmnState
    if stateDiff.hasFields then some (toMN.internalId, stateDiff) else none

def buildDiff (list toList : CDeterministicMNList Hash) : Diff where
  addedMNs := ((toList.forEachMN traversal false).filter fun toMN =>
    (list.getMN toMN.proTxHash).isNone).insertionSort fun a b => a.internalId <= b.internalId
  updatedMNs := emplaceAll ((toList.forEachMN traversal false).filterMap list.updateEntry)
  removedMns := (emplaceAll (((list.forEachMN traversal false).filter fun fromMN =>
    (toList.getMN fromMN.proTxHash).isNone).map fun fromMN => (fromMN.internalId, ()))).map Prod.fst

end CDeterministicMNList

/-! ## What a difference contains -/

section

variable {Hash : Type} [DecidableEq Hash] {prim : Primitive Hash} (traversal : Traversal)
  {list toList : CDeterministicMNList Hash}

omit [DecidableEq Hash] in
theorem mem_forEachMN {dmn : CDeterministicMN} :
    dmn ∈ list.forEachMN traversal false <-> ∃ proTxHash, list.getMN proTxHash = some dmn := by
  unfold forEachMN
  rw [mem_filter, Bool.not_false, Bool.true_or]
  simp only [and_true]
  exact traversal.mem_order list.mnMap dmn

theorem mem_forEachMN_iff (represented : Represented prim list) {dmn : CDeterministicMN} :
    dmn ∈ list.forEachMN traversal false <-> list.getMN dmn.proTxHash = some dmn := by
  rw [mem_forEachMN]
  constructor
  · rintro ⟨proTxHash, listed⟩
    rw [represented.keyed proTxHash dmn listed]
    exact listed
  · intro listed
    exact ⟨dmn.proTxHash, listed⟩

theorem nodup_forEachMN (represented : Represented prim list) :
    ((list.forEachMN traversal false).map proTxHash).Nodup := by
  have whole : list.forEachMN traversal false = traversal.order list.mnMap := by
    unfold forEachMN
    simp
  have keys : (list.mnMap.entries.map Sigma.snd).map proTxHash = list.mnMap.keys := by
    rw [map_map]
    refine map_congr_left ?_
    rintro ⟨proTxHash, dmn⟩ member
    exact represented.keyed proTxHash dmn (AList.mem_lookup_iff.mpr member)
  rw [whole, ((traversal.perm_order list.mnMap).map _).nodup_iff, keys]
  exact list.mnMap.keys_nodup

theorem nodup_internalIds (represented : Represented prim list) :
    ((list.forEachMN traversal false).map internalId).Nodup := by
  refine List.Nodup.map_on ?_ (nodup_forEachMN traversal represented).of_map
  intro first firstListed second secondListed sameId
  rw [mem_forEachMN_iff traversal represented] at firstListed secondListed
  have sameHash :=
    represented.exclusive (.inr first.internalId) _ _ _ _ firstListed secondListed rfl sameId.symm
  rw [sameHash, secondListed, Option.some.injEq] at firstListed
  exact firstListed.symm

theorem mem_addedMNs (represented : Represented prim toList) {dmn : CDeterministicMN} :
    dmn ∈ (list.buildDiff traversal toList).addedMNs <->
      toList.getMN dmn.proTxHash = some dmn /\ list.getMN dmn.proTxHash = none := by
  simp only [buildDiff, mem_insertionSort, mem_filter,
    mem_forEachMN_iff traversal represented, Option.isNone_iff_eq_none]

theorem nodup_addedMNs (represented : Represented prim toList) :
    ((list.buildDiff traversal toList).addedMNs.map proTxHash).Nodup := by
  have sorted := perm_insertionSort (fun a b : CDeterministicMN => a.internalId <= b.internalId)
    ((toList.forEachMN traversal false).filter fun toMN => (list.getMN toMN.proTxHash).isNone)
  refine ((sorted.map proTxHash).nodup_iff).mpr ?_
  exact (nodup_forEachMN traversal represented).sublist (filter_sublist.map _)

variable {entry : Nat × CDeterministicMNStateDiff}

omit [DecidableEq Hash] in
theorem updateEntry_eq_some {toMN : CDeterministicMN} :
    list.updateEntry toMN = some entry <-> ∃ fromMN, list.getMN toMN.proTxHash = some fromMN /\
      (ofStates fromMN.pdmnState toMN.pdmnState).hasFields = true /\
      entry = (toMN.internalId, ofStates fromMN.pdmnState toMN.pdmnState) := by
  unfold updateEntry
  rw [Option.bind_eq_some_iff]
  constructor
  · rintro ⟨fromMN, listed, made⟩
    dsimp only at made
    split at made
    · next changed =>
      cases made
      exact ⟨fromMN, listed, changed, rfl⟩
    · cases made
  · rintro ⟨fromMN, listed, changed, same⟩
    exact ⟨fromMN, listed, by simp only [changed, if_true, same]⟩

/-- The ids of the updates are those of the masternodes they are made for. -/
theorem nodup_updates (represented : Represented prim toList) :
    (((toList.forEachMN traversal false).filterMap list.updateEntry).map Prod.fst).Nodup := by
  have ids := nodup_internalIds traversal represented
  generalize toList.forEachMN traversal false = mns at ids
  induction mns with
  | nil => exact nodup_nil
  | cons _ _ ih =>
    rw [map_cons, nodup_cons] at ids
    rw [filterMap_cons]
    split
    · exact ih ids.2
    next _ made =>
    rw [map_cons, nodup_cons]
    refine ⟨?_, ih ids.2⟩
    intro member
    rcases mem_map.mp member with ⟨_, listed, sameId⟩
    rcases mem_filterMap.mp listed with ⟨otherMN, inRest, otherMade⟩
    rcases updateEntry_eq_some.mp made with ⟨_, _, _, shape⟩
    rcases updateEntry_eq_some.mp otherMade with ⟨_, _, _, otherShape⟩
    rw [shape, otherShape] at sameId
    exact ids.1 (mem_map.mpr ⟨otherMN, inRest, sameId⟩)

theorem mem_updatedMNs (represented : Represented prim toList) :
    entry ∈ (list.buildDiff traversal toList).updatedMNs <-> ∃ toMN, ∃ fromMN,
      toList.getMN toMN.proTxHash = some toMN /\ list.getMN toMN.proTxHash = some fromMN /\
      (ofStates fromMN.pdmnState toMN.pdmnState).hasFields = true /\
      entry = (toMN.internalId, ofStates fromMN.pdmnState toMN.pdmnState) := by
  simp only [buildDiff]
  rw [(emplaceAll_perm (nodup_updates traversal represented)).mem_iff, mem_filterMap]
  simp only [mem_forEachMN_iff traversal represented, updateEntry_eq_some]
  constructor
  · rintro ⟨toMN, listed, fromMN, found⟩
    exact ⟨toMN, fromMN, listed, found⟩
  · rintro ⟨toMN, fromMN, listed, found⟩
    exact ⟨toMN, listed, fromMN, found⟩

theorem nodup_updatedMNs (represented : Represented prim toList) :
    ((list.buildDiff traversal toList).updatedMNs.map Prod.fst).Nodup := by
  have ids : (((toList.forEachMN traversal false).filterMap list.updateEntry).map Prod.fst).Nodup :=
    nodup_updates traversal represented
  exact (((emplaceAll_perm ids).map Prod.fst).nodup_iff).mpr ids

theorem removedMns_perm (represented : Represented prim list) :
    (list.buildDiff traversal toList).removedMns.Perm (((list.forEachMN traversal false).filter
      fun fromMN => (toList.getMN fromMN.proTxHash).isNone).map internalId) := by
  have ids : ((((list.forEachMN traversal false).filter fun fromMN =>
    (toList.getMN fromMN.proTxHash).isNone).map fun fromMN =>
      (fromMN.internalId, ())).map Prod.fst).Nodup := by
    rw [map_map]
    exact (nodup_internalIds traversal represented).sublist (filter_sublist.map _)
  have perm := (emplaceAll_perm ids).map Prod.fst
  rwa [map_map] at perm

theorem mem_removedMns (represented : Represented prim list) {id : Nat} :
    id ∈ (list.buildDiff traversal toList).removedMns <-> ∃ fromMN,
      list.getMN fromMN.proTxHash = some fromMN /\ toList.getMN fromMN.proTxHash = none /\
      fromMN.internalId = id := by
  rw [(removedMns_perm traversal represented).mem_iff, mem_map]
  simp only [mem_filter, mem_forEachMN_iff traversal represented,
    Option.isNone_iff_eq_none, and_assoc]

theorem nodup_removedMns (represented : Represented prim list) :
    (list.buildDiff traversal toList).removedMns.Nodup := by
  rw [(removedMns_perm traversal represented).nodup_iff]
  exact (nodup_internalIds traversal represented).sublist (filter_sublist.map _)

end

variable {Hash : Type} [DecidableEq Hash] {prim : Primitive Hash}
  (injective : Function.Injective prim.serializeHash)

/-- The second masternode is the first in another state. -/
def SameMN (first second : CDeterministicMN) : Prop :=
  second = { first with pdmnState := second.pdmnState }

theorem SameMN.trans {first second third : CDeterministicMN} (one : SameMN first second)
    (two : SameMN second third) : SameMN first third := by
  unfold SameMN at *
  rw [two, one]

theorem Represented.getMNByInternalId_eq {list : CDeterministicMNList Hash}
    (represented : Represented prim list) {proTxHash : Uint256} {dmn : CDeterministicMN}
    (listed : list.getMN proTxHash = some dmn) :
    list.getMNByInternalId dmn.internalId = some dmn := by
  unfold getMNByInternalId
  rw [(represented.ids dmn.internalId proTxHash).mpr ⟨dmn, listed, rfl⟩]
  exact listed

/-- A loop that brings one masternode after the other into the new roster. -/
theorem WellFormed.forEach_update {α : Type} (body : CDeterministicMNList Hash -> α -> Outcome Hash)
    (key : α -> Uint256) (new : Uint256 -> Option CDeterministicMN)
    (fine : (Uint256 -> Option CDeterministicMN) -> Prop)
    (closed : ∀ roster proTxHash, fine roster -> fine (Function.update roster proTxHash (new proTxHash)))
    (items : List α) :
    ∀ {list : CDeterministicMNList Hash}, WellFormed prim list -> fine list.getMN ->
      (items.map key).Nodup ->
      (∀ item ∈ items, ∀ current : CDeterministicMNList Hash, WellFormed prim current ->
        current.getMN (key item) = list.getMN (key item) ->
        fine (Function.update current.getMN (key item) (new (key item))) ->
        ∃ after, body current item = (none, after) /\ WellFormed prim after /\
          after.getMN = Function.update current.getMN (key item) (new (key item))) ->
      ∃ after, forEach body items list = (none, after) /\
        WellFormed prim after /\ fine after.getMN /\ ∀ proTxHash, after.getMN proTxHash =
          if proTxHash ∈ items.map key then new proTxHash else list.getMN proTxHash := by
  induction items with
  | nil =>
    intro list wellFormed isFine _ _
    exact ⟨list, rfl, wellFormed, isFine, by simp⟩
  | cons item _ ih =>
    intro list wellFormed isFine distinct step
    rw [map_cons, nodup_cons] at distinct
    have further := closed _ (key item) isFine
    rcases step item (.head _) list wellFormed rfl further with ⟨_, done, middleOk, members⟩
    rcases ih middleOk (by rw [members]; exact further) distinct.2 (by
      intro other later current currentOk same
      rw [members, update_of_ne] at same
      · exact step other (.tail _ later) current currentOk same
      · intro equal
        exact distinct.1 (mem_map.mpr ⟨other, later, equal⟩)) with
      ⟨after, looped, afterOk, afterFine, afterMembers⟩
    refine ⟨after, ?_, afterOk, afterFine, ?_⟩
    · simp only [forEach, done]
      exact looped
    intro proTxHash
    rw [afterMembers, members]
    by_cases same : proTxHash = key item
    · subst same
      simp [update_self]
    · simp [same]

section

variable (traversal : Traversal) {list toList : CDeterministicMNList Hash}

variable (list) in
/-- The masternode an id of the first list belongs to. -/
def hashOf (id : Nat) : Uint256 :=
  (list.mnInternalIdMap.lookup id).getD 0

variable {proTxHash : Uint256}

theorem Represented.hashOf_eq (represented : Represented prim list) {dmn : CDeterministicMN}
    (listed : list.getMN proTxHash = some dmn) : hashOf list dmn.internalId = proTxHash := by
  rw [hashOf, (represented.ids dmn.internalId proTxHash).mpr ⟨dmn, listed, rfl⟩, Option.getD_some]

theorem Represented.nodup_hashOf (represented : Represented prim list) {ids : List Nat}
    (nodup : ids.Nodup)
    (listed : ∀ id ∈ ids, ∃ dmn, list.getMN dmn.proTxHash = some dmn /\ dmn.internalId = id) :
    (ids.map (hashOf list)).Nodup := by
  refine List.Nodup.map_on ?_ nodup
  intro first firstIn second secondIn same
  rcases listed first firstIn with ⟨_, oneListed, rfl⟩
  rcases listed second secondIn with ⟨_, otherListed, rfl⟩
  rw [represented.hashOf_eq oneListed, represented.hashOf_eq otherListed] at same
  rw [same, otherListed, Option.some.injEq] at oneListed
  rw [oneListed]

theorem WellFormed.leaves (fromOk : WellFormed prim list) :
    proTxHash ∈ (list.buildDiff traversal toList).removedMns.map (hashOf list) <->
      list.getMN proTxHash ≠ none /\ toList.getMN proTxHash = none := by
  rw [mem_map]
  constructor
  · rintro ⟨_, member, same⟩
    rcases (mem_removedMns traversal fromOk.represented).mp member with ⟨fromMN, listed, gone, rfl⟩
    rw [<- same, fromOk.represented.hashOf_eq listed, listed]
    exact ⟨by simp, gone⟩
  · rintro ⟨listed, gone⟩
    rcases Option.ne_none_iff_exists'.mp listed with ⟨fromMN, found⟩
    have sameHash := fromOk.keyed found
    subst sameHash
    exact ⟨_, (mem_removedMns traversal fromOk.represented).mpr ⟨fromMN, found, gone, rfl⟩,
      fromOk.represented.hashOf_eq found⟩

theorem WellFormed.joins (toOk : WellFormed prim toList) :
    proTxHash ∈ (list.buildDiff traversal toList).addedMNs.map CDeterministicMN.proTxHash <->
      toList.getMN proTxHash ≠ none /\ list.getMN proTxHash = none := by
  rw [mem_map]
  constructor
  · rintro ⟨dmn, member, rfl⟩
    rcases (mem_addedMNs traversal toOk.represented).mp member with ⟨inNew, unlisted⟩
    rw [inNew]
    exact ⟨by simp, unlisted⟩
  · rintro ⟨inNew, unlisted⟩
    rcases Option.ne_none_iff_exists'.mp inNew with ⟨dmn, found⟩
    have sameHash := toOk.keyed found
    subst sameHash
    exact ⟨dmn, (mem_addedMNs traversal toOk.represented).mpr ⟨found, unlisted⟩, rfl⟩

end

include injective in
/-- **A difference leads from one list to the other.**  Nothing is thrown on the way, and the list
that is reached has the masternodes of the second one. -/
theorem applyDiff_buildDiff (traversal : Traversal) {list toList : CDeterministicMNList Hash}
    (fromOk : WellFormed prim list) (toOk : WellFormed prim toList)
    (noHandover : NoHandover (Held prim) list.getMN toList.getMN)
    (identity : SameIdentity SameMN list.getMN toList.getMN) (blockHash : Uint256) (nHeight : Int) :
    ∃ result, list.applyDiff prim blockHash nHeight (list.buildDiff traversal toList) =
      (none, result) /\ WellFormed prim result /\ result.getMN = toList.getMN := by
  set diff := list.buildDiff traversal toList
  have startOk : WellFormed prim { list with blockHash, nHeight } :=
    fromOk.of_same_maps rfl rfl rfl
  rcases forEach_update (removeById prim) (hashOf list) toList.getMN (fun _ => True)
    (fun _ _ _ => trivial) diff.removedMns startOk trivial
    (fromOk.represented.nodup_hashOf (nodup_removedMns traversal fromOk.represented) (by
      intro id member
      rcases (mem_removedMns traversal fromOk.represented).mp member with ⟨fromMN, listed, _, sameId⟩
      exact ⟨fromMN, listed, sameId⟩)) (by
      intro id member current currentOk same _
      rcases (mem_removedMns traversal fromOk.represented).mp member with ⟨fromMN, listed, gone, rfl⟩
      rw [fromOk.represented.hashOf_eq listed] at same ⊢
      have here := same.trans listed
      rcases currentOk.exists_removeMN injective here with ⟨after, removed⟩
      refine ⟨after, ?_, currentOk.removeMN injective removed, ?_⟩
      · rw [removeById, currentOk.represented.getMNByInternalId_eq here]
        exact removed
      · rw [(of_removeMN removed).1, gone]) with
    ⟨removed, removing, removedOk, _, removedMembers⟩
  have removedWay : OnTheWay list.getMN toList.getMN removed.getMN := by
    intro proTxHash
    rw [removedMembers]
    split
    · exact .inl rfl
    next stays =>
    rw [fromOk.leaves, not_and_or, not_not] at stays
    by_cases gone : toList.getMN proTxHash = none
    · rw [gone]
      exact .inl (stays.resolve_right fun other => other gone)
    · exact .inr ⟨rfl, gone⟩
  have way : ∀ middle, OnTheWay list.getMN toList.getMN middle -> Exclusive (Held prim) middle :=
    fun middle onTheWay =>
      fromOk.represented.exclusive.onTheWay toOk.represented.exclusive noHandover onTheWay
  rcases forEach_update (fun current dmn => current.addMN prim dmn) proTxHash
    toList.getMN _ (fun _ proTxHash onTheWay => onTheWay.update proTxHash) diff.addedMNs removedOk removedWay
    (nodup_addedMNs traversal toOk.represented) (by
      intro dmn member current currentOk same further
      rcases (mem_addedMNs traversal toOk.represented).mp member with ⟨inNew, unlisted⟩
      have ok := toOk.each _ _ inNew
      rw [removedMembers, if_neg (by rw [fromOk.leaves]; exact fun left => left.1 unlisted)] at same
      rw [inNew] at further ⊢
      have new := same.trans unlisted
      have passes : (current.addMN prim dmn).1 = none := by
        refine (currentOk.represented.addMN_passes_iff injective).mpr
          ⟨new, ok.internalId, ⟨ok.collateral, ok.ownerKey⟩, ?_⟩
        intro property holds proTxHash other listed otherHolds
        have different : proTxHash ≠ dmn.proTxHash := by
          intro same
          rw [same, new] at listed
          cases listed
        exact different (way _ further property proTxHash dmn.proTxHash other dmn
          (by rw [update_of_ne different]; exact listed) (update_self ..) otherHolds holds)
      have added : current.addMN prim dmn = (none, (current.addMN prim dmn).2) := Prod.ext passes rfl
      exact ⟨_, added, currentOk.addMN injective ok added, (of_addMN added).1⟩) with
    ⟨added, adding, addedOk, addedWay, addedMembers⟩
  have stays : ∀ {proTxHash}, list.getMN proTxHash ≠ none -> toList.getMN proTxHash ≠ none ->
    added.getMN proTxHash = list.getMN proTxHash := by
    intro proTxHash listed inNew
    rw [addedMembers, if_neg fun joined => listed ((toOk.joins traversal).mp joined).2,
      removedMembers, if_neg fun left => inNew ((fromOk.leaves traversal).mp left).2]
    rfl
  rcases forEach_update (updateById prim) (fun update => hashOf list update.1)
    toList.getMN _ (fun _ proTxHash onTheWay => onTheWay.update proTxHash) diff.updatedMNs addedOk addedWay
    (by
      rw [show (fun update : Nat × CDeterministicMNStateDiff => hashOf list update.1) =
        hashOf list ∘ Prod.fst from rfl, <- map_map]
      refine fromOk.represented.nodup_hashOf (nodup_updatedMNs traversal toOk.represented) ?_
      intro id member
      rcases mem_map.mp member with ⟨update, listedUpdate, rfl⟩
      rcases (mem_updatedMNs traversal toOk.represented).mp listedUpdate with
        ⟨toMN, fromMN, inNew, listed, _, rfl⟩
      have same : toMN = { fromMN with pdmnState := toMN.pdmnState } := identity _ _ _ listed inNew
      exact ⟨fromMN, by rw [fromOk.keyed listed]; exact listed, by rw [same]⟩) (by
      intro update member current currentOk same further
      rcases (mem_updatedMNs traversal toOk.represented).mp member with
        ⟨toMN, fromMN, inNew, listed, _, rfl⟩
      have inserted : { fromMN with pdmnState := toMN.pdmnState } = toMN :=
        (identity _ _ _ listed inNew).symm
      have sameId : toMN.internalId = fromMN.internalId := by rw [<- inserted]
      have sameHash := fromOk.keyed listed
      rw [sameId, fromOk.represented.hashOf_eq listed] at same further ⊢
      rw [inNew] at further ⊢
      have here : current.getMN fromMN.proTxHash = some fromMN := by
        rw [sameHash, same, stays (by rw [listed]; simp) (by rw [inNew]; simp), listed]
      have ok : MNOk prim { fromMN with pdmnState := toMN.pdmnState } := by
        rw [inserted]
        exact toOk.each _ _ inNew
      rcases currentOk.exists_updateDmn injective here ok
        (by rw [inserted, sameHash]; exact way _ further) with ⟨after, updated⟩
      refine ⟨after, ?_, currentOk.updateDmn injective here ok updated, ?_⟩
      · rw [updateById, currentOk.represented.getMNByInternalId_eq here]
        dsimp only
        rw [updateDmnDiff, applyToState_ofStates]
        exact updated
      · rw [(of_updateDmn updated).1, inserted, sameHash]) with
    ⟨updated, updating, updatedOk, _, updatedMembers⟩
  refine ⟨updated, ?_, updatedOk, ?_⟩
  · simp only [applyDiff, removing, adding, updating]
  funext proTxHash
  rw [updatedMembers]
  split
  · rfl
  next notUpdated =>
  cases inNew : toList.getMN proTxHash with
  | none => exact (addedWay proTxHash).elim (fun new => new.trans inNew) fun other => absurd inNew other.2
  | some toMN =>
    cases listed : list.getMN proTxHash with
    | none =>
      rw [addedMembers, if_pos ((toOk.joins traversal).mpr ⟨by rw [inNew]; simp, listed⟩), inNew]
    | some fromMN =>
      have same : toMN = { fromMN with pdmnState := toMN.pdmnState } := identity _ _ _ listed inNew
      rw [stays (by rw [listed]; simp) (by rw [inNew]; simp), listed]
      -- Without an update the states are equal, and so are the masternodes.
      have noFields : (ofStates fromMN.pdmnState toMN.pdmnState).hasFields = false := by
        by_contra changed
        rw [Bool.not_eq_false] at changed
        have sameHash := toOk.keyed inNew
        subst sameHash
        refine notUpdated (mem_map.mpr ⟨_, (mem_updatedMNs traversal
          toOk.represented).mpr ⟨toMN, fromMN, inNew, listed, changed, rfl⟩, ?_⟩)
        have sameId : toMN.internalId = fromMN.internalId := by rw [same]
        rw [sameId]
        exact fromOk.represented.hashOf_eq listed
      rw [same, <- eq_of_hasFields_eq_false noFields]

end StakeCubeCoin.Evo
