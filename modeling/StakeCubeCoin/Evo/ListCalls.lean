import StakeCubeCoin.Evo.MNListInvariant
import StakeCubeCoin.Library.Roster

namespace StakeCubeCoin.Evo

open Primitives Library.Registry Library.Roster CDeterministicMNList Function
open List AList

/-!
# What the calls of a masternode list do

A list of masternodes is a roster: the masternodes by the hash of their registration, which
hold their unique properties and their internal id.  A call that adds, removes or updates a
masternode changes the roster at one place, and it succeeds exactly if the properties are
exclusive afterwards.
-/

section

variable {Hash : Type} [DecidableEq Hash] (prim : Primitive Hash) {proTxHash : Uint256}

variable {properties : MnUniquePropertyMap Hash}

/-- An exchange can be made if what is wanted and not held is free. -/
theorem exists_exchange (injective : Function.Injective prim.serializeHash)
    {held wanted : UniqueProperty -> Prop} {ops : List (Op UniqueProperty)}
    (exchanges : Exchanges held wanted ops) (single : Single properties)
    (owned : ∀ property, held property -> owner properties (prim.serializeHash property) = some proTxHash)
    (free : ∀ property, wanted property -> ¬held property ->
      owner properties (prim.serializeHash property) = none) :
    ∃ next, perform proTxHash properties (ops.map (hashOp prim)) = some next := by
  apply Library.Registry.exists_perform _ single (exchanges.nodup_hashOps prim injective)
  · intro hash member
    rcases exchanges.mem_hashOps.1 member with ⟨property, fresh, rfl⟩
    exact free property fresh.1 fresh.2
  · intro hash member
    rcases exchanges.mem_hashOps.2 member with ⟨property, given, rfl⟩
    exact owned property given.1

end

/-! ## Masternodes that can be listed -/

section

variable {Hash : Type} [DecidableEq Hash] (prim : Primitive Hash)

/-- The masternode has an id, a collateral and an owner key, and its operator key is null or
valid. -/
structure MNOk (dmn : CDeterministicMN) : Prop where
  internalId : dmn.internalId ≠ INVALID_ID
  collateral : dmn.collateralOutpoint.isNull = false
  ownerKey : dmn.pdmnState.keyIDOwner ≠ 0
  operatorKey : OperatorKeyOk prim dmn.pdmnState.pubKeyOperator

/-- A list whose maps fit together and whose masternodes can be listed. -/
structure WellFormed (list : CDeterministicMNList Hash) : Prop where
  represented : Represented prim list
  each : ∀ proTxHash dmn, list.getMN proTxHash = some dmn -> MNOk prim dmn

/-- What no two masternodes share: the unique properties and the internal id. -/
def Held (dmn : CDeterministicMN) : UniqueProperty ⊕ Nat -> Prop
  | .inl property => Holds prim dmn property
  | .inr id => dmn.internalId = id

variable {prim} {list : CDeterministicMNList Hash}

theorem WellFormed.of_same_maps {other : CDeterministicMNList Hash}
    (wellFormed : WellFormed prim list) (sameMap : other.mnMap = list.mnMap)
    (sameIds : other.mnInternalIdMap = list.mnInternalIdMap)
    (sameProperties : other.mnUniquePropertyMap = list.mnUniquePropertyMap) :
    WellFormed prim other where
  represented := wellFormed.represented.of_same_maps sameMap sameIds sameProperties
  each := by
    unfold getMN
    rw [sameMap]
    exact wellFormed.each

theorem Represented.exclusive (represented : Represented prim list) :
    Exclusive (Held prim) list.getMN := by
  intro property first second one other firstListed secondListed firstHolds secondHolds
  cases property with
  | inl property =>
    exact represented.same_of_holds firstListed secondListed property firstHolds secondHolds
  | inr id =>
    have pointsFirst := (represented.ids id first).mpr ⟨one, firstListed, firstHolds⟩
    have pointsSecond := (represented.ids id second).mpr ⟨other, secondListed, secondHolds⟩
    rw [pointsFirst, Option.some.injEq] at pointsSecond
    exact pointsSecond

theorem WellFormed.keyed (wellFormed : WellFormed prim list)
    {proTxHash : Uint256} {dmn : CDeterministicMN} (listed : list.getMN proTxHash = some dmn) :
    dmn.proTxHash = proTxHash :=
  wellFormed.represented.keyed proTxHash dmn listed

theorem Represented.owner_eq_none
    (represented : Represented prim list) (injective : Function.Injective prim.serializeHash)
    {property : UniqueProperty}
    (free : ∀ proTxHash dmn, list.getMN proTxHash = some dmn -> ¬Holds prim dmn property) :
    owner list.mnUniquePropertyMap (prim.serializeHash property) = none := by
  cases found : owner list.mnUniquePropertyMap (prim.serializeHash property) with
  | none => rfl
  | some proTxHash =>
    rcases (represented.owners _ _).mp found with ⟨dmn, listed, _, holds, hashed⟩
    rw [injective hashed] at holds
    exact absurd holds (free proTxHash dmn listed)

end

variable {Hash : Type} [DecidableEq Hash] {prim : Primitive Hash}
  (injective : Function.Injective prim.serializeHash) {list after : CDeterministicMNList Hash}

variable {dmn : CDeterministicMN}

omit [DecidableEq Hash] in
theorem getMN_insert {proTxHash : Uint256}
    (inserted : after.mnMap = list.mnMap.insert proTxHash dmn) :
    after.getMN = update list.getMN proTxHash (some dmn) := by
  funext other
  rw [getMN, inserted]
  by_cases same : other = proTxHash
  · subst same
    rw [update_self, lookup_insert]
  · rw [update_of_ne same, lookup_insert_ne same]
    rfl

theorem WellFormed.each_update (wellFormed : WellFormed prim list) {proTxHash : Uint256}
    {value : Option CDeterministicMN} (changed : after.getMN = update list.getMN proTxHash value)
    (ok : ∀ dmn, value = some dmn -> MNOk prim dmn) :
    ∀ proTxHash dmn, after.getMN proTxHash = some dmn -> MNOk prim dmn := by
  intro other dmn listed
  rw [changed] at listed
  rcases Library.Roster.found_of_update listed with ⟨_, new⟩ | before
  · exact ok dmn new
  · exact wellFormed.each other dmn before

variable {fBumpTotalCount : Bool}

theorem of_addMN (added : list.addMN prim dmn fBumpTotalCount = (none, after)) :
    after.getMN = update list.getMN dmn.proTxHash (some dmn) /\ after.nHeight = list.nHeight /\
      after.nTotalRegisteredCount =
        if fBumpTotalCount then max (dmn.internalId + 1) list.nTotalRegisteredCount % 2 ^ 32
        else list.nTotalRegisteredCount := by
  unfold addMN at added
  iterate 4
    split at added
    · cases added
  cases added
  exact ⟨getMN_insert rfl, rfl, rfl⟩

include injective in
theorem WellFormed.addMN (wellFormed : WellFormed prim list) (ok : MNOk prim dmn)
    (added : list.addMN prim dmn fBumpTotalCount = (none, after)) : WellFormed prim after where
  represented := by
    have represented := wellFormed.represented.addMN injective dmn fBumpTotalCount ok.operatorKey
    rwa [added] at represented
  each := wellFormed.each_update (of_addMN added).1 fun _ same => Option.some.inj same ▸ ok

theorem addMN_eq_none_iff : (list.addMN prim dmn fBumpTotalCount).1 = none <->
    list.getMN dmn.proTxHash = none /\ dmn.internalId ≠ INVALID_ID /\
      list.mnInternalIdMap.lookup dmn.internalId = none /\
      ∃ next, attempt (addSteps prim dmn) list.mnUniquePropertyMap = (none, next) := by
  unfold addMN getMN
  rcases attempt (addSteps prim dmn) list.mnUniquePropertyMap with ⟨error, next⟩
  cases list.mnMap.lookup dmn.proTxHash with
  | some other => simp
  | none =>
    by_cases unset : dmn.internalId = INVALID_ID
    · simp [unset]
    cases list.mnInternalIdMap.lookup dmn.internalId with
    | some other => simp [unset]
    | none => cases error <;> simp [unset]

include injective in
/-- The properties of a new masternode can be claimed exactly if nobody holds them. -/
theorem Represented.exists_claim_iff (represented : Represented prim list)
    (unlisted : list.getMN dmn.proTxHash = none) :
    (∃ next, perform dmn.proTxHash list.mnUniquePropertyMap
      (((uniqueProperties prim dmn).map Op.claim).map (hashOp prim)) = some next) <->
    ∀ property, Holds prim dmn property -> ∀ proTxHash other, list.getMN proTxHash = some other ->
      ¬Holds prim other property := by
  constructor
  · rintro ⟨next, performed⟩ property holds proTxHash other listed otherHolds
    have different : proTxHash ≠ dmn.proTxHash := by
      intro same
      rw [same, unlisted] at listed
      cases listed
    have exchanged := (owner_after_exchange prim injective (exchanges_add prim dmn) represented.single
      (represented.unlisted_iff unlisted) performed).2 (prim.serializeHash property)
    have owned := (represented.owners _ proTxHash).mpr ⟨other, listed, property, otherHolds, rfl⟩
    have mine := (exchanged dmn.proTxHash).mpr (.inr ⟨rfl, property, holds, rfl⟩)
    rw [(exchanged proTxHash).mpr (.inl ⟨different, owned⟩)] at mine
    exact different (Option.some.inj mine)
  · intro nobody
    exact exists_exchange prim injective (exchanges_add prim dmn) represented.single
      (fun _ impossible => impossible.elim) fun property holds _ =>
        represented.owner_eq_none injective (nobody property holds)

include injective in
/-- A masternode is added exactly if it has an id, a collateral and an owner key and nobody holds
what it holds. -/
theorem Represented.addMN_passes_iff (represented : Represented prim list) :
    (list.addMN prim dmn fBumpTotalCount).1 = none <-> list.getMN dmn.proTxHash = none /\
      dmn.internalId ≠ INVALID_ID /\ (dmn.collateralOutpoint.isNull = false /\ dmn.pdmnState.keyIDOwner ≠ 0) /\
      ∀ property, Held prim dmn property -> ∀ proTxHash other, list.getMN proTxHash = some other ->
        ¬Held prim other property := by
  have fresh : list.mnInternalIdMap.lookup dmn.internalId = none <-> ∀ proTxHash other,
      list.getMN proTxHash = some other -> other.internalId ≠ dmn.internalId := by
    rw [Option.eq_none_iff_forall_not_mem]
    refine forall_congr' fun proTxHash => ?_
    rw [Option.mem_def, represented.ids, not_exists]
    exact forall_congr' fun other => not_and
  rw [addMN_eq_none_iff, fresh]
  refine and_congr_right fun unlisted => and_congr_right fun _ => ?_
  simp only [attempt_addSteps, exists_and_left, represented.exists_claim_iff injective unlisted]
  rw [and_left_comm, Sum.forall]
  refine and_congr_right fun _ => ?_
  rw [and_comm]
  exact and_congr_right fun _ => ⟨fun all id same => same ▸ all, fun all => all _ rfl⟩

variable {proTxHash : Uint256}

theorem of_removeMN (removed : list.removeMN prim proTxHash = (none, after)) :
    after.getMN = update list.getMN proTxHash none /\ after.nHeight = list.nHeight /\
      after.nTotalRegisteredCount = list.nTotalRegisteredCount := by
  unfold removeMN at removed
  iterate 3
    split at removed
    · cases removed
  cases removed
  refine ⟨funext fun other => ?_, rfl, rfl⟩
  by_cases same : other = proTxHash
  · subst same
    rw [update_self, getMN, lookup_erase]
  · rw [update_of_ne same, getMN, lookup_erase_ne same]
    rfl

include injective in
theorem WellFormed.removeMN (wellFormed : WellFormed prim list)
    (removed : list.removeMN prim proTxHash = (none, after)) : WellFormed prim after where
  represented := by
    have represented := wellFormed.represented.removeMN injective proTxHash
    rwa [removed] at represented
  each := wellFormed.each_update (of_removeMN removed).1 nofun

include injective in
theorem WellFormed.exists_removeMN (wellFormed : WellFormed prim list)
    (listed : list.getMN proTxHash = some dmn) :
    ∃ after, list.removeMN prim proTxHash = (none, after) := by
  have represented := wellFormed.represented
  have ok := wellFormed.each proTxHash dmn listed
  have sameHash := wellFormed.keyed listed
  subst sameHash
  rcases exists_exchange prim injective (exchanges_remove prim dmn) represented.single
    (fun property holds => (represented.held_iff listed _).mpr ⟨property, holds, rfl⟩)
    (fun _ impossible _ => impossible.elim) with ⟨_, performed⟩
  have attempted := (attempt_removeSteps prim).mpr ⟨⟨ok.collateral, ok.ownerKey⟩, performed⟩
  unfold CDeterministicMNList.removeMN
  rw [listed]
  simp only [attempted, if_neg ok.internalId]
  exact ⟨_, rfl⟩

variable {oldDmn : CDeterministicMN} {pdmnState : CDeterministicMNState}

theorem of_updateDmn (updated : list.updateDmn prim oldDmn pdmnState = (none, after)) :
    after.getMN = update list.getMN oldDmn.proTxHash (some { oldDmn with pdmnState }) /\
      after.nHeight = list.nHeight /\ after.nTotalRegisteredCount = list.nTotalRegisteredCount := by
  simp only [updateDmn] at updated
  split at updated
  · cases updated
  · cases updated
    exact ⟨getMN_insert rfl, rfl, rfl⟩

section

variable (wellFormed : WellFormed prim list) (listed : list.getMN oldDmn.proTxHash = some oldDmn)
  (ok : MNOk prim { oldDmn with pdmnState })

include wellFormed listed ok

include injective in
theorem WellFormed.updateDmn
    (updated : list.updateDmn prim oldDmn pdmnState = (none, after)) : WellFormed prim after where
  represented := by
    have represented := wellFormed.represented.updateDmn injective listed pdmnState ok.operatorKey
    rwa [updated] at represented
  each := wellFormed.each_update (of_updateDmn updated).1 fun _ same => Option.some.inj same ▸ ok

include injective in
/-- Updating succeeds if the properties are exclusive with the new state. -/
theorem WellFormed.exists_updateDmn
    (exclusive : Exclusive (Held prim) (update list.getMN oldDmn.proTxHash
      (some { oldDmn with pdmnState }))) :
    ∃ after, list.updateDmn prim oldDmn pdmnState = (none, after) := by
  have represented := wellFormed.represented
  have oldOk := wellFormed.each _ _ listed
  have free : ∀ property, Holds prim { oldDmn with pdmnState } property ->
    ¬Holds prim oldDmn property ->
    owner list.mnUniquePropertyMap (prim.serializeHash property) = none := by
    intro property wanted notHeld
    refine represented.owner_eq_none injective ?_
    intro proTxHash other otherListed otherHolds
    by_cases same : proTxHash = oldDmn.proTxHash
    · rw [same, listed, Option.some.injEq] at otherListed
      rw [<- otherListed] at otherHolds
      exact notHeld otherHolds
    · exact same (exclusive (.inl property) proTxHash oldDmn.proTxHash other _
        (by rw [update_of_ne same]; exact otherListed) (update_self ..) otherHolds
        wanted)
  rcases exists_exchange prim injective
    (exchanges_update prim oldDmn pdmnState oldOk.operatorKey ok.operatorKey) represented.single
    (fun property holds => (represented.held_iff listed _).mpr ⟨property, holds, rfl⟩) free with
    ⟨_, performed⟩
  have attempted := attempt_updateSteps.mpr performed
  simp only [CDeterministicMNList.updateDmn, attempted]
  exact ⟨_, rfl⟩

end

theorem updateMN_eq_ok (updated : list.updateMN prim proTxHash pdmnState = (none, after)) :
    ∃ oldDmn, list.getMN proTxHash = some oldDmn /\
      list.updateDmn prim oldDmn pdmnState = (none, after) := by
  unfold updateMN at updated
  split at updated
  · cases updated
  · next oldDmn listed => exact ⟨oldDmn, listed, updated⟩

/-- A masternode has the collateral, the address, the owner key or the operator key of another
one. -/
def Clashes (prim : Primitive Hash) (dmn other : CDeterministicMN) : Prop :=
  other.collateralOutpoint = dmn.collateralOutpoint \/
    dmn.pdmnState.addr ≠ CService.null /\ other.pdmnState.addr = dmn.pdmnState.addr \/
    other.pdmnState.keyIDOwner = dmn.pdmnState.keyIDOwner \/
    CBLSLazyPublicKey.isValid prim.fromBytes dmn.pdmnState.pubKeyOperator = true /\
      other.pdmnState.pubKeyOperator = dmn.pdmnState.pubKeyOperator

omit [DecidableEq Hash] in
theorem clashes_iff {other : CDeterministicMN} (ownerKey : dmn.pdmnState.keyIDOwner ≠ 0) :
    other.internalId = dmn.internalId \/ Clashes prim dmn other <->
      ∃ property, Held prim dmn property /\ Held prim other property := by
  constructor
  · rintro (same | same | ⟨notNull, same⟩ | same | ⟨valid, same⟩)
    · exact ⟨.inr _, rfl, same⟩
    · exact ⟨.inl (.collateralOutpoint _), rfl, same.symm⟩
    · exact ⟨.inl (.addr _), ⟨rfl, notNull⟩, same.symm, notNull⟩
    · exact ⟨.inl (.keyIDOwner _), ⟨rfl, ownerKey⟩, same.symm, ownerKey⟩
    · exact ⟨.inl (.pubKeyOperator _), ⟨rfl, valid⟩, same.symm, valid⟩
  · rintro ⟨property | _, mine, theirs⟩
    · right
      cases property with
      | collateralOutpoint value => exact .inl (theirs.symm.trans mine)
      | addr value => exact .inr (.inl ⟨mine.1 ▸ mine.2, theirs.1.symm.trans mine.1⟩)
      | keyIDOwner value => exact .inr (.inr (.inl (theirs.1.symm.trans mine.1)))
      | pubKeyOperator value => exact .inr (.inr (.inr ⟨mine.1 ▸ mine.2, theirs.1.symm.trans mine.1⟩))
    · exact .inl (theirs.trans mine.symm)

/-- **Calls that throw change nothing, and `AddMN` throws for duplicates only.**  Both constructors
of a masternode assert that its internal id was set. -/
theorem calls_atomic (injective : Function.Injective prim.serializeHash)
    (represented : Represented prim list) :
    (∀ dmn fBumpTotalCount, (list.addMN prim dmn fBumpTotalCount).1 ≠ none ->
      (list.addMN prim dmn fBumpTotalCount).2 = list) /\
    (∀ oldDmn pdmnState, (list.updateDmn prim oldDmn pdmnState).1 ≠ none ->
      (list.updateDmn prim oldDmn pdmnState).2 = list) /\
    (∀ proTxHash pdmnState, (list.updateMN prim proTxHash pdmnState).1 ≠ none ->
      (list.updateMN prim proTxHash pdmnState).2 = list) /\
    (∀ proTxHash, (list.removeMN prim proTxHash).1 ≠ none -> (list.removeMN prim proTxHash).2 = list) /\
    ∀ dmn fBumpTotalCount, dmn.internalId ≠ INVALID_ID -> ((list.addMN prim dmn fBumpTotalCount).1 ≠ none <->
      (list.getMN dmn.proTxHash).isSome \/ (∃ other, list.getMN other.proTxHash = some other /\
        (other.internalId = dmn.internalId \/ Clashes prim dmn other)) \/
      dmn.pdmnState.keyIDOwner = 0 \/ dmn.collateralOutpoint.isNull = true) := by
  have updates : ∀ oldDmn pdmnState, (list.updateDmn prim oldDmn pdmnState).1 ≠ none ->
      (list.updateDmn prim oldDmn pdmnState).2 = list := by
    intro oldDmn pdmnState
    unfold updateDmn
    dsimp only
    split
    · exact fun _ => rfl
    · exact fun thrown => absurd rfl thrown
  refine ⟨?_, updates, ?_, ?_, ?_⟩
  · intro dmn fBumpTotalCount
    unfold addMN
    split
    · exact fun _ => rfl
    split
    · exact fun _ => rfl
    split
    · exact fun _ => rfl
    split
    · exact fun _ => rfl
    · exact fun thrown => absurd rfl thrown
  · intro proTxHash pdmnState
    unfold updateMN
    split
    · exact fun _ => rfl
    · exact updates _ _
  · intro proTxHash
    unfold removeMN
    split
    · exact fun _ => rfl
    split
    · exact fun _ => rfl
    split
    · exact fun _ => rfl
    · exact fun thrown => absurd rfl thrown
  · intro dmn fBumpTotalCount identified
    rw [Ne, represented.addMN_passes_iff injective]
    constructor
    · intro thrown
      by_contra fine
      simp only [not_or, not_exists, not_and, Bool.not_eq_true, Option.isSome_eq_false_iff,
        Option.isNone_iff_eq_none] at fine
      obtain ⟨unlisted, fresh, ownerKey, collateral⟩ := fine
      refine thrown ⟨unlisted, identified, ⟨collateral, ownerKey⟩, fun property mine proTxHash other listed theirs => ?_⟩
      have own := represented.keyed proTxHash other listed
      exact not_or.mpr (fresh other (own.symm ▸ listed)) ((clashes_iff ownerKey).mpr ⟨property, mine, theirs⟩)
    · rintro (listed | ⟨other, listed, clash⟩ | null | null) ⟨unlisted, _, ⟨collateral, ownerKey⟩, nobody⟩
      · rw [unlisted] at listed
        cases listed
      · obtain ⟨property, mine, theirs⟩ := (clashes_iff ownerKey).mp clash
        exact nobody property mine _ other listed theirs
      · exact ownerKey null
      · rw [null] at collateral
        cases collateral

def sampleList : CDeterministicMNList UniqueProperty :=
  runCalls samplePrimitive {} [.addMN (sampleMN 1) true]

theorem calls_atomic_sample :
    (sampleList.addMN samplePrimitive { sampleMN 2 with pdmnState := (sampleMN 1).pdmnState }).1 ≠ none /\
      (sampleList.addMN samplePrimitive { sampleMN 2 with pdmnState := (sampleMN 1).pdmnState }).2 = sampleList := by
  have atomic := calls_atomic (fun _ _ same => same) (Represented.runCalls (fun _ _ same => same)
    [.addMN (sampleMN 1) true] (fun _ member => mem_singleton.mp member ▸ .inl rfl)
    (represented_empty samplePrimitive 0 (-1) 0))
  have thrown :=
    (atomic.2.2.2.2 { sampleMN 2 with pdmnState := (sampleMN 1).pdmnState } true (by decide)).mpr
    (.inr (.inl ⟨sampleMN 1, by decide, .inr (.inr (.inr (.inl rfl)))⟩))
  exact ⟨thrown, atomic.1 _ _ thrown⟩

end StakeCubeCoin.Evo
