import StakeCubeCoin.Evo.MNListDiff

namespace StakeCubeCoin.Evo

open Primitives Library CDeterministicMNState Reads CDeterministicMNStateDiff List Nat

/-!
# Differences as bytes

How `CDeterministicMNState`, `CDeterministicMN`, `CDeterministicMNStateDiff` and
`CDeterministicMNListDiff` are written to the database and read from it.  A state is written
member by member, in the order of the bits of the fields; of the difference between two states
only the members that changed are written, after the bits that tell which.  A difference
that was built from two lists is read back as it was.
-/

namespace CDeterministicMNState

def serializeField (state : CDeterministicMNState) : Field -> List UInt8
  | .nRegisteredHeight => writeInt32 state.nRegisteredHeight
  | .nLastPaidHeight => writeInt32 state.nLastPaidHeight
  | .nPoSePenalty => writeInt32 state.nPoSePenalty
  | .nPoSeRevivedHeight => writeInt32 state.nPoSeRevivedHeight
  | .nPoSeBanHeight => writeInt32 state.nPoSeBanHeight
  | .nRevocationReason => littleEndian 2 state.nRevocationReason
  | .confirmedHash => littleEndian 32 state.confirmedHash.toNat
  | .confirmedHashWithProRegTxHash => littleEndian 32 state.confirmedHashWithProRegTxHash.toNat
  | .keyIDOwner => littleEndian 20 state.keyIDOwner.toNat
  | .pubKeyOperator => state.pubKeyOperator
  | .keyIDVoting => littleEndian 20 state.keyIDVoting.toNat
  | .addr => state.addr.serialize
  | .scriptPayout => writeVector state.scriptPayout
  | .scriptOperatorPayout => writeVector state.scriptOperatorPayout

def readField (target : CDeterministicMNState) : Field -> Reader CDeterministicMNState
  | .nRegisteredHeight => do
    let value <- readInt32
    pure { target with nRegisteredHeight := value }
  | .nLastPaidHeight => do
    let value <- readInt32
    pure { target with nLastPaidHeight := value }
  | .nPoSePenalty => do
    let value <- readInt32
    pure { target with nPoSePenalty := value }
  | .nPoSeRevivedHeight => do
    let value <- readInt32
    pure { target with nPoSeRevivedHeight := value }
  | .nPoSeBanHeight => do
    let value <- readInt32
    pure { target with nPoSeBanHeight := value }
  | .nRevocationReason => do
    let value <- readLittleEndian 2
    pure { target with nRevocationReason := value }
  | .confirmedHash => do
    let value <- readWord 256 32
    pure { target with confirmedHash := value }
  | .confirmedHashWithProRegTxHash => do
    let value <- readWord 256 32
    pure { target with confirmedHashWithProRegTxHash := value }
  | .keyIDOwner => do
    let value <- readWord 160 20
    pure { target with keyIDOwner := value }
  | .pubKeyOperator => do
    let value <- readBytes CBLSLazyPublicKey.SerSize
    pure { target with pubKeyOperator := value }
  | .keyIDVoting => do
    let value <- readWord 160 20
    pure { target with keyIDVoting := value }
  | .addr => do
    let value <- CService.unserialize
    pure { target with addr := value }
  | .scriptPayout => do
    let value <- readVector
    pure { target with scriptPayout := value }
  | .scriptOperatorPayout => do
    let value <- readVector
    pure { target with scriptOperatorPayout := value }

def setField (source target : CDeterministicMNState) : Field -> CDeterministicMNState
  | .nRegisteredHeight => { target with nRegisteredHeight := source.nRegisteredHeight }
  | .nLastPaidHeight => { target with nLastPaidHeight := source.nLastPaidHeight }
  | .nPoSePenalty => { target with nPoSePenalty := source.nPoSePenalty }
  | .nPoSeRevivedHeight => { target with nPoSeRevivedHeight := source.nPoSeRevivedHeight }
  | .nPoSeBanHeight => { target with nPoSeBanHeight := source.nPoSeBanHeight }
  | .nRevocationReason => { target with nRevocationReason := source.nRevocationReason }
  | .confirmedHash => { target with confirmedHash := source.confirmedHash }
  | .confirmedHashWithProRegTxHash =>
    { target with confirmedHashWithProRegTxHash := source.confirmedHashWithProRegTxHash }
  | .keyIDOwner => { target with keyIDOwner := source.keyIDOwner }
  | .pubKeyOperator => { target with pubKeyOperator := source.pubKeyOperator }
  | .keyIDVoting => { target with keyIDVoting := source.keyIDVoting }
  | .addr => { target with addr := source.addr }
  | .scriptPayout => { target with scriptPayout := source.scriptPayout }
  | .scriptOperatorPayout => { target with scriptOperatorPayout := source.scriptOperatorPayout }

/-- The members are values of the types that they have in the source. -/
structure Storable (state : CDeterministicMNState) : Prop where
  nRegisteredHeight : IsInt32 state.nRegisteredHeight
  nLastPaidHeight : IsInt32 state.nLastPaidHeight
  nPoSePenalty : IsInt32 state.nPoSePenalty
  nPoSeRevivedHeight : IsInt32 state.nPoSeRevivedHeight
  nPoSeBanHeight : IsInt32 state.nPoSeBanHeight
  nRevocationReason : state.nRevocationReason < 256 ^ 2
  pubKeyOperator : state.pubKeyOperator.length = CBLSLazyPublicKey.SerSize
  addr : state.addr.Readable
  scriptPayout : state.scriptPayout.length <= MAX_SIZE
  scriptOperatorPayout : state.scriptOperatorPayout.length <= MAX_SIZE

theorem storable_default : Storable {} where
  nRegisteredHeight := by unfold IsInt32; decide
  nLastPaidHeight := by unfold IsInt32; decide
  nPoSePenalty := by unfold IsInt32; decide
  nPoSeRevivedHeight := by unfold IsInt32; decide
  nPoSeBanHeight := by unfold IsInt32; decide
  nRevocationReason := by decide
  pubKeyOperator := rfl
  addr := CService.readable_null
  scriptPayout := zero_le _
  scriptOperatorPayout := zero_le _

variable {state : CDeterministicMNState}

theorem reads_serializeField (storable : Storable state)
    (target : CDeterministicMNState) (field : Field) :
    Reads (readField target field) (state.serializeField field) (setField state target field) := by
  cases field with
  | nRegisteredHeight => exact last (reads_writeInt32 storable.nRegisteredHeight) rfl
  | nLastPaidHeight => exact last (reads_writeInt32 storable.nLastPaidHeight) rfl
  | nPoSePenalty => exact last (reads_writeInt32 storable.nPoSePenalty) rfl
  | nPoSeRevivedHeight => exact last (reads_writeInt32 storable.nPoSeRevivedHeight) rfl
  | nPoSeBanHeight => exact last (reads_writeInt32 storable.nPoSeBanHeight) rfl
  | nRevocationReason => exact last (reads_littleEndian storable.nRevocationReason) rfl
  | confirmedHash => exact last (reads_readWord state.confirmedHash (by decide)) rfl
  | confirmedHashWithProRegTxHash =>
    exact last (reads_readWord state.confirmedHashWithProRegTxHash (by decide)) rfl
  | keyIDOwner => exact last (reads_readWord state.keyIDOwner (by decide)) rfl
  | pubKeyOperator => exact last (reads_readBytes storable.pubKeyOperator) rfl
  | keyIDVoting => exact last (reads_readWord state.keyIDVoting (by decide)) rfl
  | addr => exact last (CService.reads_serialize storable.addr) rfl
  | scriptPayout => exact last (reads_writeVector storable.scriptPayout) rfl
  | scriptOperatorPayout => exact last (reads_writeVector storable.scriptOperatorPayout) rfl

/-- Members that are written one after another are read one after another. -/
theorem reads_fields (storable : Storable state) (fields : List Field) :
    ∀ target, Reads (fields.foldlM readField target) (fields.flatMap state.serializeField)
      (fields.foldl (setField state) target) := by
  induction fields with
  | nil =>
    intro target
    exact reads_pure target
  | cons field _ ih =>
    intro target
    rw [foldlM_cons, flatMap_cons, foldl_cons]
    exact (reads_serializeField storable target field).bind (ih _)

/-- `SERIALIZE_METHODS`, which passes through the members in the order of the fields. -/
def serialize (state : CDeterministicMNState) : List UInt8 :=
  allFields.flatMap state.serializeField

def unserialize : Reader CDeterministicMNState :=
  allFields.foldlM readField {}

/-! ### Single members -/

def FieldValue : Field -> Type
  | .nRegisteredHeight | .nLastPaidHeight | .nPoSePenalty | .nPoSeRevivedHeight | .nPoSeBanHeight =>
    Int
  | .nRevocationReason => Nat
  | .confirmedHash | .confirmedHashWithProRegTxHash => Uint256
  | .keyIDOwner | .keyIDVoting => CKeyID
  | .pubKeyOperator => CBLSLazyPublicKey
  | .addr => CService
  | .scriptPayout | .scriptOperatorPayout => CScript

def member (state : CDeterministicMNState) : (field : Field) -> FieldValue field
  | .nRegisteredHeight => state.nRegisteredHeight
  | .nLastPaidHeight => state.nLastPaidHeight
  | .nPoSePenalty => state.nPoSePenalty
  | .nPoSeRevivedHeight => state.nPoSeRevivedHeight
  | .nPoSeBanHeight => state.nPoSeBanHeight
  | .nRevocationReason => state.nRevocationReason
  | .confirmedHash => state.confirmedHash
  | .confirmedHashWithProRegTxHash => state.confirmedHashWithProRegTxHash
  | .keyIDOwner => state.keyIDOwner
  | .pubKeyOperator => state.pubKeyOperator
  | .keyIDVoting => state.keyIDVoting
  | .addr => state.addr
  | .scriptPayout => state.scriptPayout
  | .scriptOperatorPayout => state.scriptOperatorPayout

theorem eq_of_members {first second : CDeterministicMNState}
    (same : ∀ field, first.member field = second.member field) : first = second := by
  rcases first with ⟨_, _, _, _, _, _, _, _, _, _, _, _, _, _⟩
  rcases second with ⟨_, _, _, _, _, _, _, _, _, _, _, _, _, _⟩
  rw [mk.injEq]
  exact ⟨same .nPoSeBanHeight, same .nRegisteredHeight, same .nLastPaidHeight, same .nPoSePenalty,
    same .nPoSeRevivedHeight, same .nRevocationReason, same .confirmedHash,
    same .confirmedHashWithProRegTxHash, same .keyIDOwner, same .pubKeyOperator, same .keyIDVoting,
    same .addr, same .scriptPayout, same .scriptOperatorPayout⟩

variable (source target : CDeterministicMNState)

theorem member_setField_self (field : Field) :
    (setField source target field).member field = source.member field := by
  cases field <;> rfl

theorem member_setField_of_ne {field other : Field} (different : other ≠ field) :
    (setField source target field).member other = target.member other := by
  cases field <;> cases other <;> first | rfl | exact absurd rfl different

/-- Copied members are those of the source, and the others stay. -/
theorem member_foldl_setField (source : CDeterministicMNState) (fields : List Field)
    (field : Field) :
    ∀ target, (fields.foldl (setField source) target).member field =
      if field ∈ fields then source.member field else target.member field := by
  induction fields with
  | nil =>
    intro target
    simp
  | cons first rest ih =>
    intro target
    rw [foldl_cons, ih]
    by_cases later : field ∈ rest
    · rw [if_pos later, if_pos (.tail _ later)]
    · rw [if_neg later]
      by_cases same : field = first
      · rw [if_pos (same ▸ (.head _)), same, member_setField_self]
      · rw [if_neg (by simp [same, later]), member_setField_of_ne _ _ same]

theorem reads_serialize (storable : Storable state) : Reads unserialize state.serialize state := by
  have whole := reads_fields storable allFields {}
  have all : allFields.foldl (setField state) {} = state := by
    apply eq_of_members
    intro field
    rw [member_foldl_setField, if_pos (by cases field <;> decide)]
  rw [all] at whole
  exact whole

end CDeterministicMNState

namespace CDeterministicMN

def serialize (dmn : CDeterministicMN) : List UInt8 :=
  littleEndian 32 dmn.proTxHash.toNat ++ (writeVarInt dmn.internalId ++
    (COutPointCodec.serialize dmn.collateralOutpoint ++
      (littleEndian 2 dmn.nOperatorReward ++ dmn.pdmnState.serialize)))

def unserialize : Reader CDeterministicMN := do
  let proTxHash <- readWord 256 32
  let internalId <- readVarInt (2 ^ 64 - 1)
  let collateralOutpoint <- COutPointCodec.unserialize
  let nOperatorReward <- readLittleEndian 2
  let pdmnState <- CDeterministicMNState.unserialize
  pure
    { internalId, proTxHash, collateralOutpoint,
      nOperatorReward, pdmnState }

/-- The members are values of the types that they have in the source. -/
structure Storable (dmn : CDeterministicMN) : Prop where
  internalId : dmn.internalId < 2 ^ 64
  collateralOutpoint : dmn.collateralOutpoint.n < 256 ^ 4
  nOperatorReward : dmn.nOperatorReward < 256 ^ 2
  pdmnState : dmn.pdmnState.Storable

theorem reads_serialize {dmn : CDeterministicMN} (storable : Storable dmn) :
    Reads unserialize dmn.serialize dmn := by
  refine (reads_readWord dmn.proTxHash (by decide)).bind ?_
  refine (reads_writeVarInt (le_sub_one_of_lt storable.internalId)).bind ?_
  refine (COutPointCodec.reads_serialize storable.collateralOutpoint).bind ?_
  refine (reads_littleEndian storable.nOperatorReward).bind ?_
  exact last (CDeterministicMNState.reads_serialize storable.pdmnState) rfl

end CDeterministicMN

namespace CDeterministicMNStateDiff

def setFields (fields : Field -> Bool) : List Field :=
  allFields.filter fields

variable (diff : CDeterministicMNStateDiff)

def serialize : List UInt8 :=
  writeVarInt (ofBits (allFields.map diff.fields)) ++
    (setFields diff.fields).flatMap diff.state.serializeField

def bitOf (mask : Nat) (field : Field) : Bool :=
  (bitsOf allFields.length mask).getD (allFields.idxOf field) false

def unserialize : Reader CDeterministicMNStateDiff := do
  let mask <- readVarInt (2 ^ 32 - 1)
  let state <- (setFields (bitOf mask)).foldlM readField {}
  pure { fields := bitOf mask, state }

theorem bitOf_ofBits (fields : Field -> Bool) : bitOf (ofBits (allFields.map fields)) = fields := by
  funext field
  have size : allFields.length = (allFields.map fields).length := by rw [length_map]
  unfold bitOf
  rw [size, bitsOf_ofBits]
  cases field <;> rfl

/-- Members without a bit are those of a new state. -/
def Canonical : Prop :=
  (setFields diff.fields).foldl (setField diff.state) {} = diff.state

theorem reads_serialize {diff : CDeterministicMNStateDiff} (storable : diff.state.Storable)
    (canonical : Canonical diff) : Reads unserialize diff.serialize diff := by
  have mask : ofBits (allFields.map diff.fields) <= 2 ^ 32 - 1 := by
    have small := ofBits_lt (allFields.map diff.fields)
    rw [length_map, show allFields.length = 14 from rfl] at small
    omega
  refine (reads_writeVarInt mask).bind ?_
  rw [bitOf_ofBits]
  refine last (reads_fields storable _ {}) ?_
  rw [canonical]

theorem mem_setFields {fields : Field -> Bool} {field : Field} :
    field ∈ setFields fields <-> fields field = true := by
  unfold setFields
  rw [mem_filter]
  exact and_iff_right (by cases field <;> decide)

theorem canonical_ofStates (a b : CDeterministicMNState) : Canonical (ofStates a b) := by
  apply eq_of_members
  intro field
  rw [member_foldl_setField]
  split
  · rfl
  · next absent =>
    rw [mem_setFields, Bool.not_eq_true] at absent
    cases field <;> exact (if_neg (of_decide_eq_false absent)).symm

/-- What is taken over from a state that can be stored can be stored. -/
theorem storable_ofStates {a b : CDeterministicMNState} (storable : b.Storable) :
    (ofStates a b).state.Storable := by
  have unchanged := storable_default
  constructor <;> simp only [ofStates] <;> split
  all_goals first
    | exact storable.nRegisteredHeight
    | exact storable.nLastPaidHeight
    | exact storable.nPoSePenalty
    | exact storable.nPoSeRevivedHeight
    | exact storable.nPoSeBanHeight
    | exact storable.nRevocationReason
    | exact storable.pubKeyOperator
    | exact storable.addr
    | exact storable.scriptPayout
    | exact storable.scriptOperatorPayout
    | exact unchanged.nRegisteredHeight
    | exact unchanged.nLastPaidHeight
    | exact unchanged.nRevocationReason
    | exact unchanged.pubKeyOperator
    | exact unchanged.addr
    | exact unchanged.scriptPayout

end CDeterministicMNStateDiff

namespace CDeterministicMNList
namespace Diff

def serializeUpdate (update : Nat × CDeterministicMNStateDiff) : List UInt8 :=
  writeVarInt update.1 ++ update.2.serialize

def unserializeUpdate : Reader (Nat × CDeterministicMNStateDiff) := do
  let id <- readVarInt (2 ^ 64 - 1)
  let diff <- CDeterministicMNStateDiff.unserialize
  pure (id, diff)

def serialize (diff : Diff) : List UInt8 :=
  writeSequence CDeterministicMN.serialize diff.addedMNs ++
    (writeSequence serializeUpdate diff.updatedMNs ++ writeSequence writeVarInt diff.removedMns)

/-- `Unserialize`.  Updates and ids are put into a map and a set. -/
def unserialize : Reader Diff := do
  let addedMNs <- readSequence CDeterministicMN.unserialize
  let updatedMNs <- readSequence unserializeUpdate
  let removedMns <- readSequence (readVarInt (2 ^ 64 - 1))
  pure
    { addedMNs := addedMNs
      updatedMNs := emplaceAll updatedMNs
      removedMns := (emplaceAll (removedMns.map fun id => (id, ()))).map Prod.fst }

/-- The difference fits into its bytes. -/
structure Storable (diff : Diff) : Prop where
  addedMNs : diff.addedMNs.length <= MAX_SIZE
  updatedMNs : diff.updatedMNs.length <= MAX_SIZE
  removedMns : diff.removedMns.length <= MAX_SIZE
  added : ∀ dmn ∈ diff.addedMNs, dmn.Storable
  updated : ∀ update ∈ diff.updatedMNs,
    update.1 < 2 ^ 64 /\ update.2.state.Storable /\ update.2.Canonical
  removed : ∀ id ∈ diff.removedMns, id < 2 ^ 64
  orderedUpdates : Increasing diff.updatedMNs
  orderedRemoved : Increasing (diff.removedMns.map fun id => (id, ()))

theorem reads_serialize {diff : Diff} (storable : Storable diff) :
    Reads unserialize diff.serialize diff := by
  have eachAdded : ∀ dmn ∈ diff.addedMNs,
    Reads CDeterministicMN.unserialize dmn.serialize dmn := fun dmn member =>
    CDeterministicMN.reads_serialize (storable.added dmn member)
  have eachUpdate : ∀ update ∈ diff.updatedMNs,
    Reads unserializeUpdate (serializeUpdate update) update := by
    intro update member
    rcases storable.updated update member with ⟨id, state, canonical⟩
    refine (reads_writeVarInt (le_sub_one_of_lt id)).bind ?_
    exact last (CDeterministicMNStateDiff.reads_serialize state canonical) rfl
  have eachRemoved : ∀ id ∈ diff.removedMns,
    Reads (readVarInt (2 ^ 64 - 1)) (writeVarInt id) id := fun id member =>
    reads_writeVarInt (le_sub_one_of_lt (storable.removed id member))
  refine (reads_writeSequence storable.addedMNs eachAdded).bind ?_
  refine (reads_writeSequence storable.updatedMNs eachUpdate).bind ?_
  refine last (reads_writeSequence storable.removedMns eachRemoved) ?_
  rw [emplaceAll_of_increasing storable.orderedUpdates,
    emplaceAll_of_increasing storable.orderedRemoved, map_map]
  simp only [Function.comp_def, map_id_fun', id_eq]

end Diff
end CDeterministicMNList
end StakeCubeCoin.Evo
