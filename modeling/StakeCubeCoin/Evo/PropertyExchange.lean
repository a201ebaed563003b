import StakeCubeCoin.Library.Registry
import StakeCubeCoin.Evo.MNList

namespace StakeCubeCoin.Evo

open Primitives Library.Registry Library UniqueProperty List CBLSLazyPublicKey Op Registry

/-!
# Exchanging the unique properties of a masternode

The map of unique properties is a registry of hashes owned by masternodes.  Every
mutating call exchanges the properties of one masternode for others: `AddMN` claims
some, `RemoveMN` gives some up, and `UpdateMN` does both for what differs between
two states.

What an exchange does to the registry is proved once; the calls then differ only in
which properties they exchange.
-/

section

variable {Hash : Type} (prim : Primitive Hash) (dmn : CDeterministicMN)

/-- The properties a listed masternode holds: its collateral, its address and its
owner key unless null, and its operator key if valid. -/
def uniqueProperties : List UniqueProperty :=
  [.collateralOutpoint dmn.collateralOutpoint] ++
    (if dmn.pdmnState.addr = CService.null then [] else [.addr dmn.pdmnState.addr]) ++
    (if dmn.pdmnState.keyIDOwner = 0 then [] else [.keyIDOwner dmn.pdmnState.keyIDOwner]) ++
    (if isValid prim.fromBytes dmn.pdmnState.pubKeyOperator then
      [.pubKeyOperator dmn.pdmnState.pubKeyOperator] else [])

/-- Which property of a masternode a value would be. -/
def Holds : UniqueProperty -> Prop
  | .collateralOutpoint value => value = dmn.collateralOutpoint
  | .addr value => value = dmn.pdmnState.addr /\ value ≠ CService.null
  | .keyIDOwner value => value = dmn.pdmnState.keyIDOwner /\ value ≠ 0
  | .pubKeyOperator value => value = dmn.pdmnState.pubKeyOperator /\
    isValid prim.fromBytes value = true

theorem mem_uniqueProperties_iff (property : UniqueProperty) :
    property ∈ uniqueProperties prim dmn <-> Holds prim dmn property := by
  unfold uniqueProperties
  simp only [mem_append, mem_singleton, mem_ite_nil_left, mem_ite_nil_right]
  cases property with
  | collateralOutpoint value => simp [Holds]
  | _ =>
    simp only [Holds, reduceCtorEq, addr.injEq, keyIDOwner.injEq, pubKeyOperator.injEq,
      and_false, or_false, false_or]
    rw [and_comm]
    exact and_congr_right fun same => by rw [same]

/-- A list of claims and releases which exchanges one set of properties for another.  What is held
before and after is not touched, as `UpdateUniqueProperty` leaves an equal value alone. -/
structure Exchanges (held wanted : UniqueProperty -> Prop) (ops : List (Op UniqueProperty)) :
    Prop where
  distinct : (ops.map Op.key).Nodup
  claim_iff : ∀ property, Op.claim property ∈ ops <-> wanted property /\ ¬held property
  release_iff : ∀ property, Op.release property ∈ ops <-> held property /\ ¬wanted property

/-- The same operation on the hash of the property. -/
def hashOp : Op UniqueProperty -> Op Hash
  | .claim property => .claim (prim.serializeHash property)
  | .release property => .release (prim.serializeHash property)

theorem key_hashOp (op : Op UniqueProperty) : (hashOp prim op).key = prim.serializeHash op.key := by
  cases op <;> rfl

variable {held wanted : UniqueProperty -> Prop} {ops : List (Op UniqueProperty)}

variable {prim} in
theorem Exchanges.mem_hashOps (exchanges : Exchanges held wanted ops) {hash : Hash} :
    (claim hash ∈ ops.map (hashOp prim) ->
        ∃ property, (wanted property /\ ¬held property) /\ prim.serializeHash property = hash) /\
      (release hash ∈ ops.map (hashOp prim) ->
        ∃ property, (held property /\ ¬wanted property) /\ prim.serializeHash property = hash) := by
  constructor
  · intro member
    rcases mem_map.mp member with ⟨op, listed, same⟩
    cases op with
    | release => cases same
    | claim property => exact ⟨property, (exchanges.claim_iff property).mp listed, claim.inj same⟩
  · intro member
    rcases mem_map.mp member with ⟨op, listed, same⟩
    cases op with
    | claim => cases same
    | release property => exact ⟨property, (exchanges.release_iff property).mp listed, release.inj same⟩

variable (injective : Function.Injective prim.serializeHash)

include injective

theorem Exchanges.nodup_hashOps (exchanges : Exchanges held wanted ops) :
    ((ops.map (hashOp prim)).map key).Nodup := by
  have keys : (ops.map (hashOp prim)).map key = (ops.map key).map prim.serializeHash := by
    rw [map_map, map_map]
    exact map_congr_left fun op _ => key_hashOp prim op
  rw [keys]
  exact exchanges.distinct.map injective

variable [DecidableEq Hash]

/-- **Exchange.**  If the registry shows one owner with exactly the properties held, a successful
exchange shows exactly those wanted, and the other owners' keys as they were. -/
theorem owner_after_exchange (exchanges : Exchanges held wanted ops)
    {claimant : Uint256} {properties next : MnUniquePropertyMap Hash} (single : Single properties)
    (before : ∀ hash, owner properties hash = some claimant <->
      ∃ property, held property /\ prim.serializeHash property = hash)
    (performed : perform claimant properties (ops.map (hashOp prim)) = some next) :
    Single next /\ ∀ hash holder, owner next hash = some holder <->
      (holder ≠ claimant /\ owner properties hash = some holder) \/
      (holder = claimant /\ ∃ property, wanted property /\ prim.serializeHash property = hash) := by
  have notYet : ∀ hash, claim hash ∈ ops.map (hashOp prim) ->
    owner properties hash ≠ some claimant := by
    intro hash member owned
    rcases exchanges.mem_hashOps.1 member with ⟨other, fresh, otherHash⟩
    rcases (before hash).mp owned with ⟨property, isHeld, hashed⟩
    rw [injective (hashed.trans otherHash.symm)] at isHeld
    exact fresh.2 isHeld
  have effect := perform_spec _ single (exchanges.nodup_hashOps prim injective) notYet performed
  refine ⟨effect.single, ?_⟩
  intro hash holder
  -- A hash that no operation concerns keeps its owner; otherwise the operation decides.
  by_cases concerned : ∃ op ∈ ops, prim.serializeHash op.key = hash
  · rcases concerned with ⟨op, listed, hashed⟩
    subst hashed
    have mapped := mem_map_of_mem (f := hashOp prim) listed
    have after := effect.owner_of_mem _ mapped
    rw [key_hashOp] at after
    cases op with
    | claim property =>
      have isWanted := ((exchanges.claim_iff property).mp listed).1
      have same : some claimant = some holder <-> holder = claimant := by
        rw [Option.some.injEq, eq_comm]
      dsimp only [key, hashOp, ownerAfter] at after ⊢
      rw [after, effect.free_before _ mapped, same]
      simpa using fun _ => ⟨property, isWanted, rfl⟩
    | release property =>
      have notWanted := ((exchanges.release_iff property).mp listed).2
      dsimp only [key, hashOp, ownerAfter] at after ⊢
      rw [after, effect.owned_before _ mapped]
      refine ⟨nofun, ?_⟩
      rintro (⟨different, same⟩ | ⟨_, other, isWanted, same⟩)
      · exact absurd (Option.some.inj same).symm different
      · rw [injective same] at isWanted
        exact absurd isWanted notWanted
  · have kept : owner next hash = owner properties hash := by
      apply effect.owner_of_not_mem
      intro op member same
      rcases mem_map.mp member with ⟨original, listed, mapped⟩
      rw [<- mapped, key_hashOp] at same
      exact concerned ⟨original, listed, same⟩
    have balanced : (∃ property, held property /\ prim.serializeHash property = hash) <->
      ∃ property, wanted property /\ prim.serializeHash property = hash := by
      refine exists_congr fun property => and_congr_left fun hashed => ?_
      constructor
      · intro isHeld
        by_contra notWanted
        exact concerned ⟨_, (exchanges.release_iff property).mpr ⟨isHeld, notWanted⟩, hashed⟩
      · intro isWanted
        by_contra notHeld
        exact concerned ⟨_, (exchanges.claim_iff property).mpr ⟨isWanted, notHeld⟩, hashed⟩
    rw [kept, <- balanced, <- before]
    by_cases same : holder = claimant
    · simp [same]
    · simp [same]

end
section

variable {Hash : Type} [DecidableEq Hash] (prim : Primitive Hash) {proTxHash : Uint256}

variable {next properties : MnUniquePropertyMap Hash} {property : UniqueProperty}

theorem addUniqueProperty_iff :
    addUniqueProperty prim proTxHash property properties = (true, next) <->
      property.isNull = false /\ perform proTxHash properties [hashOp prim (.claim property)] = some next := by
  simp only [addUniqueProperty, hashOp, perform, Registry.claim, Option.bind_fun_some]
  cases property.isNull with
  | true => simp
  | false =>
    cases properties.lookup (prim.serializeHash property) with
    | none => simp
    | some entry => by_cases same : entry.1 = proTxHash <;> simp [same]

theorem deleteUniqueProperty_iff :
    deleteUniqueProperty prim proTxHash property properties = (true, next) <->
      property.isNull = false /\ perform proTxHash properties [hashOp prim (.release property)] = some next := by
  simp only [deleteUniqueProperty, hashOp, perform, Registry.release, Option.bind_fun_some]
  cases property.isNull with
  | true => simp
  | false =>
    cases properties.lookup (prim.serializeHash property) with
    | none => simp
    | some entry =>
      by_cases same : entry.1 = proTxHash <;> by_cases once : entry.2 = 1 <;> simp [same, once]

/-- What `UpdateUniqueProperty` does when it succeeds. -/
def updateOps (oldValue newValue : UniqueProperty) : List (Op UniqueProperty) :=
  if oldValue = newValue then []
  else (if oldValue.isNull then [] else [.release oldValue]) ++
    (if newValue.isNull then [] else [.claim newValue])

/-- First the old value is given up, then the new one is claimed. -/
theorem updateUniqueProperty_iff {oldValue newValue : UniqueProperty} :
    updateUniqueProperty prim proTxHash oldValue newValue properties = (true, next) <->
      perform proTxHash properties ((updateOps oldValue newValue).map (hashOp prim)) = some next := by
  unfold updateUniqueProperty updateOps
  by_cases same : oldValue = newValue
  · simp [same, perform]
  rw [if_neg same, if_neg same, map_append, perform_append]
  have claimed : ∀ middle : MnUniquePropertyMap Hash, (if newValue.isNull then (true, middle)
      else addUniqueProperty prim proTxHash newValue middle) = (true, next) <->
        perform proTxHash middle ((if newValue.isNull then [] else [.claim newValue]).map (hashOp prim)) =
          some next := by
    intro middle
    cases newNull : newValue.isNull <;> simp [perform, addUniqueProperty_iff, newNull]
  cases oldNull : oldValue.isNull with
  | true => simpa [perform] using claimed properties
  | false =>
    rcases deleted : deleteUniqueProperty prim proTxHash oldValue properties with ⟨done, middle⟩
    have release := fun left => @deleteUniqueProperty_iff _ _ prim proTxHash left properties oldValue
    simp only [deleted, oldNull, Prod.mk.injEq, true_and] at release
    cases done with
    | true =>
      have released := (release middle).mp ⟨rfl, rfl⟩
      simpa [released] using claimed middle
    | false =>
      have nothing : perform proTxHash properties [hashOp prim (.release oldValue)] = none :=
        Option.eq_none_iff_forall_ne_some.mpr fun left released => by simpa using (release left).mpr released
      simp [nothing]

def enabledOps (plan : List (PropertyStep Hash × List (Op UniqueProperty))) :
    List (Op UniqueProperty) :=
  plan.flatMap fun item => if item.1.enabled then item.2 else []

/-- Steps that succeed exactly if a condition holds and their operations can be performed. -/
theorem attempt_iff {ok : PropertyStep Hash × List (Op UniqueProperty) -> Prop}
    (plan : List (PropertyStep Hash × List (Op UniqueProperty)))
    (realized : ∀ item ∈ plan, ∀ properties next, item.1.change properties = (true, next) <->
      ok item /\ perform proTxHash properties (item.2.map (hashOp prim)) = some next) :
    ∀ {properties next : MnUniquePropertyMap Hash},
      attempt (plan.map Prod.fst) properties = (none, next) <->
        (∀ item ∈ plan, item.1.enabled = true -> ok item) /\
          perform proTxHash properties ((enabledOps plan).map (hashOp prim)) = some next := by
  induction plan with
  | nil => simp [attempt, enabledOps, perform]
  | cons item _ ih =>
    intro properties next
    have here := realized item (.head _) properties
    have later := @ih (forall_mem_cons.mp realized).2
    simp only [map_cons, attempt, enabledOps, flatMap_cons, map_append, perform_append, forall_mem_cons]
    by_cases enabled : item.1.enabled = true
    · simp only [enabled, if_true, true_imp_iff]
      rcases changed : item.1.change properties with ⟨done, middle⟩
      simp only [changed, Prod.mk.injEq] at here
      cases done with
      | true =>
        rcases (here middle).mp ⟨rfl, rfl⟩ with ⟨holds, performed⟩
        rw [if_pos rfl, performed, later]
        exact ⟨fun both => ⟨⟨holds, both.1⟩, both.2⟩, fun both => ⟨both.1.2, both.2⟩⟩
      | false =>
        constructor
        · intro failed
          cases failed
        · rintro ⟨⟨holds, _⟩, performed⟩
          rcases Option.bind_eq_some_iff.mp performed with ⟨left, first, _⟩
          exact absurd ((here left).mpr ⟨holds, first⟩).1 Bool.false_ne_true
    · simpa [enabled, perform, enabledOps] using later

end

/-! ## The exchanges made by the calls -/

variable {Hash : Type} (prim : Primitive Hash)

/-- An operator key is null or valid, as `IsTriviallyValid` has it. -/
def OperatorKeyOk (key : CBLSLazyPublicKey) : Prop :=
  key = null \/ isValid prim.fromBytes key = true

theorem isValid_iff_ne_null {key : CBLSLazyPublicKey} (fine : OperatorKeyOk prim key) :
    isValid prim.fromBytes key = true <-> key ≠ null := by
  constructor
  · intro valid null
    rw [null, isValid_null] at valid
    cases valid
  · intro notNull
    exact fine.resolve_left notNull

variable (dmn : CDeterministicMN)

theorem nodup_uniqueProperties : (uniqueProperties prim dmn).Nodup := by
  unfold uniqueProperties
  split <;> split <;> split <;> simp

theorem exchanges_add :
    Exchanges (fun _ => False) (Holds prim dmn) ((uniqueProperties prim dmn).map claim) := by
  refine ⟨?_, by simp [mem_uniqueProperties_iff], by simp⟩
  rw [map_map]
  exact (nodup_uniqueProperties prim dmn).map fun _ _ same => same

theorem exchanges_remove :
    Exchanges (Holds prim dmn) (fun _ => False) ((uniqueProperties prim dmn).map release) := by
  refine ⟨?_, by simp, by simp [mem_uniqueProperties_iff]⟩
  rw [map_map]
  exact (nodup_uniqueProperties prim dmn).map fun _ _ same => same

variable (oldValue newValue property : UniqueProperty)

theorem claim_mem_updateOps : claim property ∈ updateOps oldValue newValue <->
      oldValue ≠ newValue /\ newValue.isNull = false /\ property = newValue := by
  unfold updateOps
  split
  · next same => simp [same]
  · next _ => split <;> split <;> simp_all

theorem release_mem_updateOps : release property ∈ updateOps oldValue newValue <->
      oldValue ≠ newValue /\ oldValue.isNull = false /\ property = oldValue := by
  unfold updateOps
  split
  · next same => simp [same]
  · next _ => split <;> split <;> simp_all

theorem nodup_updateOps (oldValue newValue : UniqueProperty) :
    ((updateOps oldValue newValue).map key).Nodup := by
  unfold updateOps
  split
  · simp
  · next different => split <;> split <;> simp [key, different]

theorem key_mem_updateOps {oldValue newValue property : UniqueProperty}
    (member : property ∈ (updateOps oldValue newValue).map key) :
    property = oldValue \/ property = newValue := by
  rcases mem_map.mp member with ⟨op, listed, same⟩
  cases op with
  | claim value =>
    have shape := (claim_mem_updateOps oldValue newValue value).mp listed
    exact .inr (same.symm.trans shape.2.2)
  | release value =>
    have shape := (release_mem_updateOps oldValue newValue value).mp listed
    exact .inl (same.symm.trans shape.2.2)

variable (oldState newState : CDeterministicMNState)

def updateAllOps : List (Op UniqueProperty) :=
  updateOps (.addr oldState.addr) (.addr newState.addr) ++
    (updateOps (.keyIDOwner oldState.keyIDOwner) (.keyIDOwner newState.keyIDOwner) ++
      updateOps (.pubKeyOperator oldState.pubKeyOperator) (.pubKeyOperator newState.pubKeyOperator))

theorem nodup_updateAllOps : ((updateAllOps oldState newState).map key).Nodup := by
  unfold updateAllOps
  rw [map_append, map_append, nodup_append, nodup_append]
  refine ⟨nodup_updateOps _ _, ⟨nodup_updateOps _ _, nodup_updateOps _ _, ?_⟩, ?_⟩
  · intro first firstMember second secondMember same
    subst same
    rcases key_mem_updateOps firstMember with shape | shape <;>
      rcases key_mem_updateOps secondMember with other | other <;>
      exact absurd (shape.symm.trans other) (by simp)
  · intro first firstMember second secondMember same
    subst same
    rcases key_mem_updateOps firstMember with shape | shape <;>
      rcases mem_append.mp secondMember with among | among <;>
      rcases key_mem_updateOps among with other | other <;>
      exact absurd (shape.symm.trans other) (by simp)

theorem exchanges_update (newState : CDeterministicMNState)
    (oldOk : OperatorKeyOk prim dmn.pdmnState.pubKeyOperator)
    (newOk : OperatorKeyOk prim newState.pubKeyOperator) :
    Exchanges (Holds prim dmn) (Holds prim { dmn with pdmnState := newState })
      (updateAllOps dmn.pdmnState newState) := by
  have oldIff := isValid_iff_ne_null prim oldOk
  have newIff := isValid_iff_ne_null prim newOk
  refine ⟨nodup_updateAllOps dmn.pdmnState newState, fun property => ?_, fun property => ?_⟩
  all_goals
    simp only [updateAllOps, mem_append, claim_mem_updateOps, release_mem_updateOps]
    cases property with
    | collateralOutpoint value => simp [Holds]
    | _ =>
      simp only [Holds, isNull, addr.injEq, keyIDOwner.injEq, pubKeyOperator.injEq,
        ne_eq, reduceCtorEq, and_false, or_false, false_or, beq_eq_false_iff_ne]
      grind

end StakeCubeCoin.Evo
