import Mathlib.Data.List.AList
import StakeCubeCoin.Primitives.Transaction

namespace StakeCubeCoin.Evo

open Primitives

/-!
# The deterministic masternode list

`CDeterministicMNList` of `evo/deterministicmns.{h,cpp}`.  The list keeps three
maps: the masternodes by registration hash, the registration hashes by internal
id, and the unique properties (collateral, address, owner key, operator key) by
hash, each with its owner and a reference count.

Every mutating call saves the map of unique properties, changes it step by step,
and restores it before an exception leaves the call.  This is modelled as it is
written: a call returns the exception, if any, *and* the list it leaves behind.
-/

/-- `CService`: network class, address bytes and port.  The fields are those that
`operator==` compares. -/
structure CService where
  m_net : Nat
  m_addr : List UInt8
  port : Nat
  deriving DecidableEq

/-- `CService()`: the IPv6 address `::` and port zero. -/
def CService.null : CService :=
  { m_net := 2, m_addr := List.replicate 16 0, port := 0 }

abbrev CKeyID := BitVec 160

/-- `CBLSLazyPublicKey`, by its serialization. -/
abbrev CBLSLazyPublicKey := List UInt8

namespace CBLSLazyPublicKey

def SerSize : Nat := 48

/-- The default constructor: an all-zero buffer. -/
def null : CBLSLazyPublicKey :=
  List.replicate SerSize 0

variable (fromBytes : List UInt8 -> Bool)

/-- `Get().IsValid()`: the buffer has the right size, is not all zero, and the
library parses it (`fromBytes`, which also covers the malleability check). -/
def isValid (key : CBLSLazyPublicKey) : Bool :=
  key.length == SerSize && !key.all (· == 0) && fromBytes key

@[simp] theorem isValid_null : isValid fromBytes null = false :=
  rfl

end CBLSLazyPublicKey

structure CDeterministicMNState where
  nPoSeBanHeight : Int := -1
  nRegisteredHeight : Int := -1
  nLastPaidHeight : Int := 0
  nPoSePenalty : Int := 0
  nPoSeRevivedHeight : Int := -1
  nRevocationReason : Nat := 0
  confirmedHash : Uint256 := 0
  confirmedHashWithProRegTxHash : Uint256 := 0
  keyIDOwner : CKeyID := 0
  pubKeyOperator : CBLSLazyPublicKey := CBLSLazyPublicKey.null
  keyIDVoting : CKeyID := 0
  addr : CService := CService.null
  scriptPayout : CScript := []
  scriptOperatorPayout : CScript := []
  deriving DecidableEq

namespace CDeterministicMNState

variable (state : CDeterministicMNState)

def isBanned : Bool :=
  state.nPoSeBanHeight != -1

def banIfNotBanned (height : Int) : CDeterministicMNState :=
  if state.isBanned then state else { state with nPoSeBanHeight := height }

end CDeterministicMNState

/-- `CDeterministicMNStateDiff::Field`, in the order of the bits. -/
inductive Field where
  | nRegisteredHeight
  | nLastPaidHeight
  | nPoSePenalty
  | nPoSeRevivedHeight
  | nPoSeBanHeight
  | nRevocationReason
  | confirmedHash
  | confirmedHashWithProRegTxHash
  | keyIDOwner
  | pubKeyOperator
  | keyIDVoting
  | addr
  | scriptPayout
  | scriptOperatorPayout
  deriving DecidableEq

/-- `CDeterministicMNStateDiff`: the bits that are set, and a state of which only
those members count. -/
structure CDeterministicMNStateDiff where
  fields : Field -> Bool
  state : CDeterministicMNState

def CDeterministicMNStateDiff.applyToState (diff : CDeterministicMNStateDiff)
    (target : CDeterministicMNState) : CDeterministicMNState :=
  let pick {α : Type} (field : Field) (member : CDeterministicMNState -> α) : α :=
    if diff.fields field then member diff.state else member target
  { nRegisteredHeight := pick .nRegisteredHeight (·.nRegisteredHeight)
    nLastPaidHeight := pick .nLastPaidHeight (·.nLastPaidHeight)
    nPoSePenalty := pick .nPoSePenalty (·.nPoSePenalty)
    nPoSeRevivedHeight := pick .nPoSeRevivedHeight (·.nPoSeRevivedHeight)
    nPoSeBanHeight := pick .nPoSeBanHeight (·.nPoSeBanHeight)
    nRevocationReason := pick .nRevocationReason (·.nRevocationReason)
    confirmedHash := pick .confirmedHash (·.confirmedHash)
    confirmedHashWithProRegTxHash :=
      pick .confirmedHashWithProRegTxHash (·.confirmedHashWithProRegTxHash)
    keyIDOwner := pick .keyIDOwner (·.keyIDOwner)
    pubKeyOperator := pick .pubKeyOperator (·.pubKeyOperator)
    keyIDVoting := pick .keyIDVoting (·.keyIDVoting)
    addr := pick .addr (·.addr)
    scriptPayout := pick .scriptPayout (·.scriptPayout)
    scriptOperatorPayout := pick .scriptOperatorPayout (·.scriptOperatorPayout) }

structure CDeterministicMN where
  internalId : Nat
  proTxHash : Uint256
  collateralOutpoint : COutPoint
  nOperatorReward : Nat := 0
  pdmnState : CDeterministicMNState
  deriving DecidableEq

/-- The internal id of a masternode that has not been given one. -/
def INVALID_ID : Nat := 2 ^ 64 - 1

/-- A value of one of the four types of unique properties.  Their serializations differ in length,
so a hash is taken of the tagged value. -/
inductive UniqueProperty where
  | collateralOutpoint (value : COutPoint)
  | addr (value : CService)
  | keyIDOwner (value : CKeyID)
  | pubKeyOperator (value : CBLSLazyPublicKey)
  deriving DecidableEq

/-- `v == nullValue`, for the default-constructed value of the type of `v`. -/
def UniqueProperty.isNull : UniqueProperty -> Bool
  | .collateralOutpoint value => value.isNull
  | .addr value => value == CService.null
  | .keyIDOwner value => value == 0
  | .pubKeyOperator value => value == CBLSLazyPublicKey.null

abbrev MnMap := AList (fun _ : Uint256 => CDeterministicMN)
abbrev MnInternalIdMap := AList (fun _ : Nat => Uint256)
abbrev MnUniquePropertyMap (Hash : Type) := AList (fun _ : Hash => Uint256 × Nat)

/-- The hash and the key parser.  The hashes of unique properties form a type of their own: the
source has 256 bits, and a hash that never collides needs more. -/
structure Primitive (Hash : Type) where
  serializeHash : UniqueProperty -> Hash
  fromBytes : List UInt8 -> Bool

section

variable {Hash : Type} [DecidableEq Hash] (prim : Primitive Hash) (proTxHash : Uint256)

/-- `AddUniqueProperty`: the result and the map left behind. -/
def addUniqueProperty (v : UniqueProperty) (properties : MnUniquePropertyMap Hash) :
    Bool × MnUniquePropertyMap Hash :=
  if v.isNull then
    (false, properties)
  else
    match properties.lookup (prim.serializeHash v) with
    | some oldEntry =>
      if oldEntry.1 ≠ proTxHash then (false, properties)
      else (true, properties.insert (prim.serializeHash v) (proTxHash, oldEntry.2 + 1))
    | none => (true, properties.insert (prim.serializeHash v) (proTxHash, 1))

def deleteUniqueProperty (oldValue : UniqueProperty) (properties : MnUniquePropertyMap Hash) :
    Bool × MnUniquePropertyMap Hash :=
  if oldValue.isNull then
    (false, properties)
  else
    match properties.lookup (prim.serializeHash oldValue) with
    | none => (false, properties)
    | some entry =>
      if entry.1 ≠ proTxHash then (false, properties)
      else if entry.2 = 1 then (true, properties.erase (prim.serializeHash oldValue))
      else (true, properties.insert (prim.serializeHash oldValue) (proTxHash, entry.2 - 1))

def updateUniqueProperty (oldValue newValue : UniqueProperty)
    (properties : MnUniquePropertyMap Hash) :
    Bool × MnUniquePropertyMap Hash :=
  if oldValue = newValue then
    (true, properties)
  else
    let deleted :=
      if oldValue.isNull then (true, properties)
      else deleteUniqueProperty prim proTxHash oldValue properties
    if !deleted.1 then
      (false, deleted.2)
    else if newValue.isNull then
      (true, deleted.2)
    else
      addUniqueProperty prim proTxHash newValue deleted.2

end

/-- What a call throws.  The texts are the format strings of the source. -/
inductive MNListError where
  | assertion (expression : String)
  | runtimeError (function text : String)
  | nullDereference
  deriving DecidableEq

/-- One guarded change of the map of unique properties, with the text thrown when
it fails. -/
structure PropertyStep (Hash : Type) where
  enabled : Bool
  change : MnUniquePropertyMap Hash -> Bool × MnUniquePropertyMap Hash
  error : MNListError

/-- Take the steps in order up to the first that fails. -/
def attempt {Hash : Type} : List (PropertyStep Hash) -> MnUniquePropertyMap Hash ->
    Option MNListError × MnUniquePropertyMap Hash
  | [], properties => (none, properties)
  | step :: rest, properties =>
    if step.enabled then
      let changed := step.change properties
      if changed.1 then attempt rest changed.2 else (some step.error, changed.2)
    else
      attempt rest properties

structure CDeterministicMNList (Hash : Type) where
  blockHash : Uint256 := 0
  nHeight : Int := -1
  nTotalRegisteredCount : Nat := 0
  mnMap : MnMap := ∅
  mnInternalIdMap : MnInternalIdMap := ∅
  mnUniquePropertyMap : MnUniquePropertyMap Hash := ∅

/-- What a call throws, if anything, and the list it leaves behind. -/
abbrev Outcome (Hash : Type) := Option MNListError × CDeterministicMNList Hash

namespace CDeterministicMNList

variable {Hash : Type} [DecidableEq Hash] (prim : Primitive Hash)

variable (list : CDeterministicMNList Hash) (proTxHash : Uint256)

def getMN : Option CDeterministicMN :=
  list.mnMap.lookup proTxHash

def getMNByInternalId (internalId : Nat) : Option CDeterministicMN :=
  match list.mnInternalIdMap.lookup internalId with
  | none => none
  | some proTxHash => list.getMN proTxHash

def calcMaxPoSePenalty : Int :=
  max 100 list.mnMap.entries.length

variable (dmn : CDeterministicMN)

def addSteps : List (PropertyStep Hash) :=
  let add := addUniqueProperty prim dmn.proTxHash
  [{ enabled := true
     change := add (.collateralOutpoint dmn.collateralOutpoint)
     error := .runtimeError "AddMN" "Can't add a masternode %s with a duplicate collateralOutpoint=%s" },
   { enabled := dmn.pdmnState.addr != CService.null
     change := add (.addr dmn.pdmnState.addr)
     error := .runtimeError "AddMN" "Can't add a masternode %s with a duplicate address=%s" },
   { enabled := true
     change := add (.keyIDOwner dmn.pdmnState.keyIDOwner)
     error := .runtimeError "AddMN" "Can't add a masternode %s with a duplicate keyIDOwner=%s" },
   { enabled := CBLSLazyPublicKey.isValid prim.fromBytes dmn.pdmnState.pubKeyOperator
     change := add (.pubKeyOperator dmn.pdmnState.pubKeyOperator)
     error := .runtimeError "AddMN" "Can't add a masternode %s with a duplicate pubKeyOperator=%s" }]

/-- `AddMN`.  Reading an internal id that was never set fails an assertion. -/
def addMN (fBumpTotalCount : Bool := true) : Outcome Hash :=
  if (list.mnMap.lookup dmn.proTxHash).isSome then
    (some (.runtimeError "AddMN" "Can't add a masternode with a duplicate proTxHash=%s"), list)
  else if dmn.internalId = INVALID_ID then
    (some (.assertion "internalId != std::numeric_limits<uint64_t>::max()"), list)
  else if (list.mnInternalIdMap.lookup dmn.internalId).isSome then
    (some (.runtimeError "AddMN" "Can't add a masternode with a duplicate internalId=%d"), list)
  else
    let mnUniquePropertyMapSaved := list.mnUniquePropertyMap
    match attempt (addSteps prim dmn) list.mnUniquePropertyMap with
    | (some error, _) => (some error, { list with mnUniquePropertyMap := mnUniquePropertyMapSaved })
    | (none, properties) =>
      (none, { list with
        mnUniquePropertyMap := properties
        mnMap := list.mnMap.insert dmn.proTxHash dmn
        mnInternalIdMap := list.mnInternalIdMap.insert dmn.internalId dmn.proTxHash
        nTotalRegisteredCount :=
          if fBumpTotalCount then max (dmn.internalId + 1) list.nTotalRegisteredCount % 2 ^ 32
          else list.nTotalRegisteredCount })

def updateSteps (oldState pdmnState : CDeterministicMNState) : List (PropertyStep Hash) :=
  let update := updateUniqueProperty prim proTxHash
  [{ enabled := true
     change := update (.addr oldState.addr) (.addr pdmnState.addr)
     error := .runtimeError "UpdateMN" "Can't update a masternode %s with a duplicate address=%s" },
   { enabled := true
     change := update (.keyIDOwner oldState.keyIDOwner) (.keyIDOwner pdmnState.keyIDOwner)
     error := .runtimeError "UpdateMN" "Can't update a masternode %s with a duplicate keyIDOwner=%s" },
   { enabled := true
     change := update (.pubKeyOperator oldState.pubKeyOperator)
       (.pubKeyOperator pdmnState.pubKeyOperator)
     error :=
       .runtimeError "UpdateMN" "Can't update a masternode %s with a duplicate pubKeyOperator=%s" }]

variable (oldDmn : CDeterministicMN) (pdmnState : CDeterministicMNState)

/-- `UpdateMN(oldDmn, pdmnState)`. -/
def updateDmn : Outcome Hash :=
  let dmn := { oldDmn with pdmnState }
  let oldState := oldDmn.pdmnState
  let mnUniquePropertyMapSaved := list.mnUniquePropertyMap
  match attempt (updateSteps prim dmn.proTxHash oldState pdmnState) list.mnUniquePropertyMap with
  | (some error, _) => (some error, { list with mnUniquePropertyMap := mnUniquePropertyMapSaved })
  | (none, properties) =>
    (none, { list with
      mnUniquePropertyMap := properties
      mnMap := list.mnMap.insert oldDmn.proTxHash dmn })

/-- `UpdateMN(proTxHash, pdmnState)`. -/
def updateMN : Outcome Hash :=
  match list.mnMap.lookup proTxHash with
  | none => (some (.runtimeError "UpdateMN" "Can't find a masternode with proTxHash=%s"), list)
  | some oldDmn => list.updateDmn prim oldDmn pdmnState

/-- `UpdateMN(oldDmn, stateDiff)`. -/
def updateDmnDiff (stateDiff : CDeterministicMNStateDiff) : Outcome Hash :=
  list.updateDmn prim oldDmn (stateDiff.applyToState oldDmn.pdmnState)

def removeSteps : List (PropertyStep Hash) :=
  let delete := deleteUniqueProperty prim dmn.proTxHash
  [{ enabled := true
     change := delete (.collateralOutpoint dmn.collateralOutpoint)
     error := .runtimeError "RemoveMN" "Can't delete a masternode %s with a collateralOutpoint=%s" },
   { enabled := dmn.pdmnState.addr != CService.null
     change := delete (.addr dmn.pdmnState.addr)
     error := .runtimeError "RemoveMN" "Can't delete a masternode %s with a address=%s" },
   { enabled := true
     change := delete (.keyIDOwner dmn.pdmnState.keyIDOwner)
     error := .runtimeError "RemoveMN" "Can't delete a masternode %s with a keyIDOwner=%s" },
   { enabled := CBLSLazyPublicKey.isValid prim.fromBytes dmn.pdmnState.pubKeyOperator
     change := delete (.pubKeyOperator dmn.pdmnState.pubKeyOperator)
     error := .runtimeError "RemoveMN" "Can't delete a masternode %s with a pubKeyOperator=%s" }]

def removeMN : Outcome Hash :=
  match list.getMN proTxHash with
  | none => (some (.runtimeError "RemoveMN" "Can't find a masternode with proTxHash=%s"), list)
  | some dmn =>
    let mnUniquePropertyMapSaved := list.mnUniquePropertyMap
    match attempt (removeSteps prim dmn) list.mnUniquePropertyMap with
    | (some error, _) =>
      (some error, { list with mnUniquePropertyMap := mnUniquePropertyMapSaved })
    | (none, properties) =>
      if dmn.internalId = INVALID_ID then
        (some (.assertion "internalId != std::numeric_limits<uint64_t>::max()"), list)
      else
        (none, { list with
          mnUniquePropertyMap := properties
          mnMap := list.mnMap.erase proTxHash
          mnInternalIdMap := list.mnInternalIdMap.erase dmn.internalId })

def poSePunish (penalty : Int) : Outcome Hash :=
  if penalty <= 0 then
    (some (.assertion "penalty > 0"), list)
  else
    match list.getMN proTxHash with
    | none => (some (.runtimeError "PoSePunish" "Can't find a masternode with proTxHash=%s"), list)
    | some dmn =>
      let maxPenalty := list.calcMaxPoSePenalty
      let newState := { dmn.pdmnState with
        nPoSePenalty := min maxPenalty (dmn.pdmnState.nPoSePenalty + penalty) }
      let newState :=
        if newState.nPoSePenalty >= maxPenalty && !newState.isBanned then
          newState.banIfNotBanned list.nHeight
        else newState
      list.updateMN prim proTxHash newState

def poSeDecrease : Outcome Hash :=
  match list.getMN proTxHash with
  | none => (some (.runtimeError "PoSeDecrease" "Can't find a masternode with proTxHash=%s"), list)
  | some dmn =>
    if dmn.pdmnState.nPoSePenalty > 0 && !dmn.pdmnState.isBanned then
      list.updateMN prim proTxHash
        { dmn.pdmnState with nPoSePenalty := dmn.pdmnState.nPoSePenalty - 1 }
    else
      (some (.assertion "dmn->pdmnState->nPoSePenalty > 0 && !dmn->pdmnState->IsBanned()"), list)

/-- `CDeterministicMNListDiff`: sets and maps are given in their iteration order. -/
structure Diff where
  addedMNs : List CDeterministicMN
  updatedMNs : List (Nat × CDeterministicMNStateDiff)
  removedMns : List Nat

def forEach {α : Type} (body : CDeterministicMNList Hash -> α -> Outcome Hash) :
    List α -> CDeterministicMNList Hash -> Outcome Hash
  | [], list => (none, list)
  | item :: rest, list =>
    match body list item with
    | (some error, after) => (some error, after)
    | (none, after) => forEach body rest after

/-- The body of the first loop of `ApplyDiff`. -/
def removeById (id : Nat) : Outcome Hash :=
  match list.getMNByInternalId id with
  | none => (some (.runtimeError "ApplyDiff" "can't find a removed masternode, id=%d"), list)
  | some dmn => list.removeMN prim dmn.proTxHash

/-- The body of the last loop of `ApplyDiff`, which dereferences the masternode
without a check. -/
def updateById (update : Nat × CDeterministicMNStateDiff) : Outcome Hash :=
  match list.getMNByInternalId update.1 with
  | none => (some .nullDereference, list)
  | some dmn => list.updateDmnDiff prim dmn update.2

/-- `ApplyDiff`.  The call works on a copy, so an exception leaves the list as it
was. -/
def applyDiff (blockHash : Uint256) (nHeight : Int) (diff : Diff) : Outcome Hash :=
  let result := { list with blockHash, nHeight }
  match forEach (removeById prim) diff.removedMns result with
  | (some error, _) => (some error, list)
  | (none, removed) =>
    match forEach (fun current dmn => current.addMN prim dmn) diff.addedMNs removed with
    | (some error, _) => (some error, list)
    | (none, added) =>
      match forEach (updateById prim) diff.updatedMNs added with
      | (some error, _) => (some error, list)
      | (none, updated) => (none, updated)

end CDeterministicMNList
end StakeCubeCoin.Evo
