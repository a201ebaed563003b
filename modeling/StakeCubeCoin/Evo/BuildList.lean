import StakeCubeCoin.Evo.ProviderChecks

namespace StakeCubeCoin.Evo

open Primitives Coins Library

/-!
# Building the list of a block

`CDeterministicMNManager::BuildNewListFromBlock` of `evo/deterministicmns.cpp`: the list after a
block is the list before it, with confirmations, penalties, the provider transactions and
commitments of the block, spent collaterals and the payee worked in, in this order.
-/

namespace CDeterministicMNState

def ofProRegTx (proTx : CProRegTx) : CDeterministicMNState :=
  { keyIDOwner := proTx.keyIDOwner, pubKeyOperator := proTx.pubKeyOperator,
    keyIDVoting := proTx.keyIDVoting, addr := proTx.addr, scriptPayout := proTx.scriptPayout }

variable (state : CDeterministicMNState)

def resetOperatorFields : CDeterministicMNState :=
  { state with
    pubKeyOperator := CBLSLazyPublicKey.null, addr := CService.null, scriptOperatorPayout := [],
    nRevocationReason := 0 }

def revive (nRevivedHeight : Int) : CDeterministicMNState :=
  { state with nPoSePenalty := 0, nPoSeBanHeight := -1, nPoSeRevivedHeight := nRevivedHeight }

def updateConfirmedHash (sha256 : List UInt8 -> Uint256) (state : CDeterministicMNState)
    (proTxHash confirmedHash : Uint256) : CDeterministicMNState :=
  { state with
    confirmedHash := confirmedHash
    confirmedHashWithProRegTxHash :=
      sha256 (littleEndian 32 proTxHash.toNat ++ littleEndian 32 confirmedHash.toNat) }

end CDeterministicMNState

/-- `operator<` of `uint256`, which compares the bytes from the lowest on. -/
def uint256Lt (first second : Uint256) : Bool :=
  decide (littleEndian 32 first.toNat < littleEndian 32 second.toNat)

def compareByLastPaidHeight (dmn : CDeterministicMN) : Int :=
  let height := dmn.pdmnState.nLastPaidHeight
  if dmn.pdmnState.nPoSeRevivedHeight ≠ -1 /\ height < dmn.pdmnState.nPoSeRevivedHeight then
    dmn.pdmnState.nPoSeRevivedHeight
  else if height = 0 then dmn.pdmnState.nRegisteredHeight
  else height

def compareByLastPaid (first second : CDeterministicMN) : Bool :=
  if compareByLastPaidHeight first = compareByLastPaidHeight second then
    uint256Lt first.proTxHash second.proTxHash
  else decide (compareByLastPaidHeight first < compareByLastPaidHeight second)

namespace CDeterministicMNList

variable {Hash : Type} [DecidableEq Hash]

/-- `ForEachMN`, as the list of masternodes the callback is given. -/
def forEachMN (traversal : Traversal) (list : CDeterministicMNList Hash) (onlyValid : Bool) :
    List CDeterministicMN :=
  (traversal.order list.mnMap).filter fun dmn => !onlyValid || !dmn.pdmnState.isBanned

def getMNPayee (traversal : Traversal) (list : CDeterministicMNList Hash) :
    Option CDeterministicMN :=
  (list.forEachMN traversal true).foldl
    (fun best dmn =>
      match best with
      | none => some dmn
      | some current => if compareByLastPaid dmn current then some dmn else some current)
    none

def calcPenalty (list : CDeterministicMNList Hash) (percent : Int) : Int :=
  list.calcMaxPoSePenalty * percent / 100

end CDeterministicMNList

variable {Hash : Type} [DecidableEq Hash] (env : ProviderEnv Hash)

/-- A step on the way to the new list. -/
abbrev Building (α : Type) := Except ProTxFailure α

/-- An exception of a call ends the building of the list. -/
def checked : Outcome Hash -> Building (CDeterministicMNList Hash)
  | (some error, _) => .error (.exception error)
  | (none, list) => .ok list

variable (pindexPrev : IndexEntry) (newList : CDeterministicMNList Hash)

def confirmMN (dmn : CDeterministicMN) : Building (CDeterministicMNList Hash) :=
  if !dmn.pdmnState.confirmedHash.isNull then .ok newList
  else
    let nConfirmations := (pindexPrev.nHeight : Int) - dmn.pdmnState.nRegisteredHeight
    if env.nMasternodeMinimumConfirmations <= nConfirmations then
      checked (newList.updateMN env.prim dmn.proTxHash
        (dmn.pdmnState.updateConfirmedHash env.sha256 dmn.proTxHash pindexPrev.hash))
    else .ok newList

def decreasePoSePenalties (mnList : CDeterministicMNList Hash) :
    Building (CDeterministicMNList Hash) :=
  let toDecrease := ((mnList.forEachMN env.traversal true).filter fun dmn =>
    decide (0 < dmn.pdmnState.nPoSePenalty)).map CDeterministicMN.proTxHash
  toDecrease.foldlM (fun list proTxHash => checked (list.poSeDecrease env.prim proTxHash)) mnList

variable (tx : CTransaction)

/-- The collateral of a registration: an output of the transaction itself unless another one is
named. -/
def collateralOf (proTx : CProRegTx) : COutPoint :=
  if proTx.collateralOutpoint.hash.isNull then
    ⟨tx.hash, proTx.collateralOutpoint.n⟩
  else proTx.collateralOutpoint

variable (nHeight : Int)

def registeredMN (proTx : CProRegTx) (internalId : Nat) (nHeight : Int) : CDeterministicMN :=
  let dmnState := { CDeterministicMNState.ofProRegTx proTx with nRegisteredHeight := nHeight }
  { internalId := internalId
    proTxHash := tx.hash
    collateralOutpoint := collateralOf tx proTx
    nOperatorReward := proTx.nOperatorReward.toNat
    pdmnState := if proTx.addr = CService.null then dmnState.banIfNotBanned nHeight else dmnState }

def removeReplaced (collateralOutpoint : COutPoint) : Building (CDeterministicMNList Hash) :=
  match newList.getMNByCollateral env.prim collateralOutpoint with
  | some replacedDmn => checked (newList.removeMN env.prim replacedDmn.proTxHash)
  | none => .ok newList

variable (view : CCoinsView)

def processProRegTx (newList : CDeterministicMNList Hash)
    (tx : CTransaction) : Building (CDeterministicMNList Hash) := do
  let proTx <- payloadOf (CProRegTx.unserialize env.toPayloadEnv) tx
  let collateralOutpoint := collateralOf tx proTx
  require (proTx.collateralOutpoint.hash.isNull || isCollateral (view collateralOutpoint)) 100
    "bad-protx-collateral"
  let rest <- removeReplaced env newList collateralOutpoint
  require (!rest.hasUniqueProperty env.prim (.addr proTx.addr)) 100 "bad-protx-dup-addr"
  require (!(rest.hasUniqueProperty env.prim (.keyIDOwner proTx.keyIDOwner) ||
    rest.hasUniqueProperty env.prim (.pubKeyOperator proTx.pubKeyOperator))) 100 "bad-protx-dup-key"
  checked (rest.addMN env.prim (registeredMN tx proTx newList.nTotalRegisteredCount nHeight))

/-- The state after an update of the service.  A masternode is only revived when all keys are
set. -/
def servedState (proTx : CProUpServTx) (nHeight : Int) (state : CDeterministicMNState) :
    CDeterministicMNState :=
  let newState := { state with addr := proTx.addr, scriptOperatorPayout := proTx.scriptOperatorPayout }
  if newState.isBanned && isValidKey env.toPayloadEnv newState.pubKeyOperator &&
    decide (newState.keyIDVoting ≠ 0) && decide (newState.keyIDOwner ≠ 0) then
    newState.revive nHeight
  else newState

def processProUpServTx (newList : CDeterministicMNList Hash) (tx : CTransaction) :
    Building (CDeterministicMNList Hash) := do
  let proTx <- payloadOf (CProUpServTx.unserialize env.toPayloadEnv) tx
  let own <- newList.testOwner env.prim (.addr proTx.addr) fun dmn =>
    decide (dmn.proTxHash = proTx.proTxHash)
  require own 100 "bad-protx-dup-addr"
  let dmn <- listedMN newList proTx.proTxHash
  checked (newList.updateMN env.prim proTx.proTxHash (servedState env proTx nHeight dmn.pdmnState))

/-- The state after an update by the owner.  With a new operator key, the fields of the operator
are reset and the masternode is banned. -/
def registrarState (proTx : CProUpRegTx) (nHeight : Int) (state : CDeterministicMNState) :
    CDeterministicMNState :=
  let newState :=
    if state.pubKeyOperator ≠ proTx.pubKeyOperator then
      state.resetOperatorFields.banIfNotBanned nHeight
    else state
  { newState with
    pubKeyOperator := proTx.pubKeyOperator, keyIDVoting := proTx.keyIDVoting,
    scriptPayout := proTx.scriptPayout }

def processProUpRegTx (newList : CDeterministicMNList Hash) (tx : CTransaction) :
    Building (CDeterministicMNList Hash) := do
  let proTx <- payloadOf (CProUpRegTx.unserialize env.toPayloadEnv) tx
  let dmn <- listedMN newList proTx.proTxHash
  checked (newList.updateMN env.prim proTx.proTxHash (registrarState proTx nHeight dmn.pdmnState))

def revokedState (proTx : CProUpRevTx) (nHeight : Int) (state : CDeterministicMNState) :
    CDeterministicMNState :=
  { state.resetOperatorFields.banIfNotBanned nHeight with nRevocationReason := proTx.nReason.toNat }

def processProUpRevTx (newList : CDeterministicMNList Hash) (tx : CTransaction) :
    Building (CDeterministicMNList Hash) := do
  let proTx <- payloadOf (CProUpRevTx.unserialize env.toPayloadEnv) tx
  let dmn <- listedMN newList proTx.proTxHash
  checked (newList.updateMN env.prim proTx.proTxHash (revokedState proTx nHeight dmn.pdmnState))

/-- The body of the loop of `HandleQuorumCommitment` over the members and their numbers. -/
def punishMember (validMembers : List Bool) (mnList : CDeterministicMNList Hash)
    (member : Uint256 × Nat) : Building (CDeterministicMNList Hash) :=
  if (mnList.getMN member.1).isNone then .ok mnList
  else if !validMembers.getD member.2 false then
    checked (mnList.poSePunish env.prim member.1 (mnList.calcPenalty 66))
  else .ok mnList

/-- The branch for a commitment, with `HandleQuorumCommitment`. -/
def processCommitmentTx : Building (CDeterministicMNList Hash) :=
  match Llmq.getTxPayload (Llmq.CFinalCommitmentTxPayload.unserialize env.scheme) tx with
  | none => .error (.reject (.dos 100 "bad-qc-payload"))
  | some qc =>
    if qc.commitment.isNull env.scheme then .ok newList
    else
      match env.getLLMQParams qc.commitment.llmqType with
      | none => .error (.exception (.assertion "GetLLMQ"))
      | some llmq_params =>
        let quorumHeight := qc.nHeight.toNat - qc.nHeight.toNat % llmq_params.dkgInterval
        if pindexPrev.getAncestor quorumHeight ≠ some qc.commitment.quorumHash then
          .error (.reject (.dos 100 "bad-qc-quorum-hash"))
        else
          (env.getAllQuorumMembers llmq_params qc.commitment.quorumHash).zipIdx.foldlM
            (punishMember env qc.commitment.validMembers) newList

def processTransaction (newList : CDeterministicMNList Hash) (tx : CTransaction) :
    Building (CDeterministicMNList Hash) :=
  let nHeight : Int := pindexPrev.nHeight + 1
  if tx.nVersion ≠ 3 then .ok newList
  else
    match tx.nType with
    | .providerRegister => processProRegTx env nHeight view newList tx
    | .providerUpdateService => processProUpServTx env nHeight newList tx
    | .providerUpdateRegistrar => processProUpRegTx env nHeight newList tx
    | .providerUpdateRevoke => processProUpRevTx env nHeight newList tx
    | .quorumCommitment => processCommitmentTx env pindexPrev newList tx
    | _ => .ok newList

def removeSpent (input : CTxIn) : Building (CDeterministicMNList Hash) :=
  match newList.getMNByCollateral env.prim input.prevout with
  | none => .ok newList
  | some dmn =>
    if dmn.collateralOutpoint = input.prevout then checked (newList.removeMN env.prim dmn.proTxHash)
    else .ok newList

/-- The payee is the one of the list before the block, and may have left it. -/
def payPayee (payee : Option CDeterministicMN) (newList : CDeterministicMNList Hash) :
    Building (CDeterministicMNList Hash) :=
  match payee with
  | none => .ok newList
  | some payee =>
    match newList.getMN payee.proTxHash with
    | none => .ok newList
    | some dmn =>
      checked (newList.updateMN env.prim payee.proTxHash
        { dmn.pdmnState with nLastPaidHeight := nHeight })

/-- `BuildNewListFromBlock`.  The coinbase is skipped. -/
def buildNewListFromBlock (vtx : List CTransaction) (pindexPrev : IndexEntry)
    (view : CCoinsView) (oldList : CDeterministicMNList Hash) :
    Building (CDeterministicMNList Hash) := do
  let nHeight : Int := pindexPrev.nHeight + 1
  let started := { oldList with blockHash := 0, nHeight }
  let payee := oldList.getMNPayee env.traversal
  let confirmed <- (oldList.forEachMN env.traversal false).foldlM (confirmMN env pindexPrev) started
  let decreased <- decreasePoSePenalties env confirmed
  let processed <- vtx.tail.foldlM (processTransaction env pindexPrev view) decreased
  let unspent <- (vtx.tail.flatMap CTransaction.vin).foldlM (removeSpent env) processed
  payPayee env nHeight payee unspent

end StakeCubeCoin.Evo
