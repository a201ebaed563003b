import StakeCubeCoin.Evo.ProviderTx

namespace StakeCubeCoin.Evo

open Primitives Coins Validation

/-!
# Checks of provider transactions

`CheckProRegTx`, `CheckProUpServTx`, `CheckProUpRegTx` and `CheckProUpRevTx` of
`evo/deterministicmns.cpp`, and `CheckSpecialTx` of `evo/specialtxman.cpp`, which calls them.
A transaction is checked against the list of masternodes after the previous block and
against the coins before the block.
-/

/-- A block index entry, with the hashes of the blocks below it, nearest first. -/
structure IndexEntry where
  hash : Uint256
  below : List Uint256
  deriving DecidableEq

namespace IndexEntry

def nHeight (pindex : IndexEntry) : Nat :=
  pindex.below.length

/-- `GetAncestor`: the hash of the ancestor at a height. -/
def getAncestor (pindex : IndexEntry) (nHeight : Nat) : Option Uint256 :=
  (pindex.hash :: pindex.below).reverse[nHeight]?

end IndexEntry

/-- How a map of masternodes is passed through: each of them once, in some order.  `ForEachMN` walks
over an `immer::map`, whose order depends on hashes. -/
structure Traversal where
  order : MnMap -> List CDeterministicMN
  perm_order : ∀ map, (order map).Perm (map.entries.map Sigma.snd)

theorem Traversal.mem_order (traversal : Traversal) (map : MnMap) (dmn : CDeterministicMN) :
    dmn ∈ traversal.order map <-> ∃ proTxHash, map.lookup proTxHash = some dmn := by
  rw [(traversal.perm_order map).mem_iff, List.mem_map]
  constructor
  · rintro ⟨⟨proTxHash, _⟩, member, same⟩
    exact ⟨proTxHash, AList.mem_lookup_iff.mpr (same ▸ member)⟩
  · rintro ⟨proTxHash, located⟩
    exact ⟨⟨proTxHash, dmn⟩, AList.mem_lookup_iff.mp located, rfl⟩

/-- Consensus parameters and code of other files: signatures, quorums, hashes, and the checks of
other special transactions. -/
structure ProviderEnv (Hash : Type) extends PayloadEnv Hash where
  traversal : Traversal
  DIP0003Height : Nat
  DIP0003EnforcementHeight : Nat
  nMasternodeMinimumConfirmations : Int
  isMain : Bool
  mainnetDefaultPort : Nat
  requireRoutableExternalIP : Bool
  isValidAddr : CService -> Bool
  isRoutable : CService -> Bool
  calcTxInputsHash : CTransaction -> Uint256
  sha256 : List UInt8 -> Uint256
  /-- `CMessageSigner::VerifyMessage` for the text of a registration. -/
  verifyMessage : CKeyID -> CProRegTx -> Bool
  /-- `CHashSigner::VerifyHash` for the hash of an update. -/
  verifyHash : CKeyID -> CProUpRegTx -> Bool
  /-- `VerifyInsecure` for the hash of an update. -/
  verifyInsecureServ : CBLSLazyPublicKey -> CProUpServTx -> Bool
  /-- `VerifyInsecure` for the hash of a revocation. -/
  verifyInsecureRev : CBLSLazyPublicKey -> CProUpRevTx -> Bool
  checkOtherSpecialTx : CTransaction -> Except ProTxFailure Unit
  getLLMQParams : Llmq.LLMQType -> Option Llmq.LLMQParams
  /-- `GetAllQuorumMembers`, by the hash of the first block of the quorum. -/
  getAllQuorumMembers : Llmq.LLMQParams -> Uint256 -> List Uint256

namespace CDeterministicMNList

variable {Hash : Type} [DecidableEq Hash] (prim : Primitive Hash) (list : CDeterministicMNList Hash)

variable (v : UniqueProperty)

def hasUniqueProperty : Bool :=
  (list.mnUniquePropertyMap.lookup (prim.serializeHash v)).isSome

def getUniquePropertyMN : Option CDeterministicMN :=
  (list.mnUniquePropertyMap.lookup (prim.serializeHash v)).bind fun entry => list.getMN entry.1

def getMNByCollateral (collateralOutpoint : COutPoint) : Option CDeterministicMN :=
  list.getUniquePropertyMN prim (.collateralOutpoint collateralOutpoint)

/-- A property that is there belongs to a masternode of which a test is made.  A masternode that is
not found is dereferenced nevertheless. -/
def testOwner (test : CDeterministicMN -> Bool) : Except ProTxFailure Bool :=
  if list.hasUniqueProperty prim v then
    match list.getUniquePropertyMN prim v with
    | none => .error (.exception .nullDereference)
    | some dmn => .ok (test dmn)
  else .ok true

end CDeterministicMNList

variable {Hash : Type} [DecidableEq Hash] (env : ProviderEnv Hash)

def checkService (addr : CService) : Except ProTxFailure Unit := do
  require (env.isValidAddr addr) 10 "bad-protx-ipaddr"
  require (!(env.requireRoutableExternalIP && !env.isRoutable addr)) 10 "bad-protx-ipaddr"
  require (if env.isMain then decide (addr.port = env.mainnetDefaultPort)
    else decide (addr.port ≠ env.mainnetDefaultPort)) 10 "bad-protx-ipaddr-port"
  require (addr.isIPv4 || addr.isIPv6) 10 "bad-protx-ipaddr"

variable (tx : CTransaction)

def checkInputsHash (inputsHash : Uint256) : Except ProTxFailure Unit :=
  require (decide (env.calcTxInputsHash tx = inputsHash)) 100 "bad-protx-inputs-hash"

/-- `IsDIP3Enforced` for the height of a block. -/
def isDIP3Enforced (nHeight : Nat) : Bool :=
  decide (env.DIP0003EnforcementHeight <= nHeight)

def collateralAmount : CAmount :=
  1000 * COIN

/-- An unspent coin with the amount of a collateral. -/
def isCollateral (coin : Option Coin) : Bool :=
  match coin with
  | none => false
  | some coin => !coin.isSpent && decide (coin.out.nValue = collateralAmount)

/-- What `CheckProRegTx` finds out about the collateral. -/
structure CollateralView where
  collateralTxDest : CTxDestination
  keyForPayloadSig : Option CKeyID
  collateralOutpoint : COutPoint

variable (ptx : CProRegTx) (view : CCoinsView)

/-- The collateral is an unspent output of another transaction. -/
def checkExternalCollateral : Except ProTxFailure CollateralView := do
  require (isCollateral (view ptx.collateralOutpoint)) 10 "bad-protx-collateral"
  match (view ptx.collateralOutpoint).bind fun coin =>
      extractDestination env.hash160 coin.out.scriptPubKey with
  | none => .error (.reject (.dos 10 "bad-protx-collateral-dest"))
  | some (.scriptID _) => .error (.reject (.dos 10 "bad-protx-collateral-pkh"))
  | some (.keyID keyID) =>
      .ok { collateralTxDest := .keyID keyID, keyForPayloadSig := some keyID,
            collateralOutpoint := ptx.collateralOutpoint }

/-- The collateral is an output of the registration itself. -/
def checkInternalCollateral : Except ProTxFailure CollateralView :=
  match tx.vout[ptx.collateralOutpoint.n]? with
  | none => .error (.reject (.dos 10 "bad-protx-collateral-index"))
  | some out => do
      require (decide (out.nValue = collateralAmount)) 10 "bad-protx-collateral"
      match extractDestination env.hash160 out.scriptPubKey with
      | none => .error (.reject (.dos 10 "bad-protx-collateral-dest"))
      | some dest =>
          .ok { collateralTxDest := dest, keyForPayloadSig := none,
                collateralOutpoint := ⟨tx.hash, ptx.collateralOutpoint.n⟩ }

/-- The collateral of a registration. -/
def checkCollateral : Except ProTxFailure CollateralView :=
  if ptx.collateralOutpoint.hash.isNull then checkInternalCollateral env tx ptx
  else checkExternalCollateral env ptx view

/-- An address that is given is checked.  Without one, the service is set later. -/
def checkGivenService (addr : CService) : Except ProTxFailure Unit :=
  if addr = CService.null then pure () else checkService env addr

variable (pindexPrev : Option IndexEntry)

/-- The part of `CheckProRegTx` that looks at the list after the previous block, if there is
one. -/
def checkProRegTxList (collateralOutpoint : COutPoint) (pindexPrev : Option IndexEntry)
    (mnList : CDeterministicMNList Hash) : Except ProTxFailure Unit :=
  match pindexPrev with
  | none => pure ()
  | some prev => do
      let sameCollateral <- mnList.testOwner env.prim (.addr ptx.addr) fun dmn =>
        decide (dmn.collateralOutpoint = collateralOutpoint)
      require sameCollateral 10 "bad-protx-dup-addr"
      require (!(mnList.hasUniqueProperty env.prim (.keyIDOwner ptx.keyIDOwner) ||
        mnList.hasUniqueProperty env.prim (.pubKeyOperator ptx.pubKeyOperator))) 10
        "bad-protx-dup-key"
      require (isDIP3Enforced env prev.nHeight || decide (ptx.keyIDOwner = ptx.keyIDVoting)) 10
        "bad-protx-key-not-same"

variable (mnList : CDeterministicMNList Hash)

def checkProRegTx (view : CCoinsView) (check_sigs : Bool) : Except ProTxFailure Unit := do
  require (decide (tx.nType = .providerRegister)) 100 "bad-protx-type"
  let ptx <- payloadOf (CProRegTx.unserialize env.toPayloadEnv) tx
  ptx.isTriviallyValid env.toPayloadEnv
  checkGivenService env ptx.addr
  let collateral <- checkCollateral env tx ptx view
  require (!(isKey collateral.collateralTxDest ptx.keyIDOwner ||
    isKey collateral.collateralTxDest ptx.keyIDVoting)) 10 "bad-protx-collateral-reuse"
  checkProRegTxList env ptx collateral.collateralOutpoint pindexPrev mnList
  checkInputsHash env tx ptx.inputsHash
  match collateral.keyForPayloadSig with
  | some keyID => require (!(check_sigs && !env.verifyMessage keyID ptx)) 100 "bad-protx-sig"
  | none => require ptx.vchSig.isEmpty 100 "bad-protx-sig"

/-- A masternode that an update names must be in the list. -/
def listedMN (proTxHash : Uint256) : Except ProTxFailure CDeterministicMN :=
  match mnList.getMN proTxHash with
  | none => .error (.reject (.dos 100 "bad-protx-hash"))
  | some dmn => .ok dmn

def checkProUpServTx (check_sigs : Bool) : Except ProTxFailure Unit := do
  require (decide (tx.nType = .providerUpdateService)) 100 "bad-protx-type"
  let ptx <- payloadOf (CProUpServTx.unserialize env.toPayloadEnv) tx
  ptx.isTriviallyValid
  checkService env ptx.addr
  match pindexPrev with
  | none => pure ()
  | some _ => do
      let mn <- listedMN mnList ptx.proTxHash
      let own <- mnList.testOwner env.prim (.addr ptx.addr) fun dmn =>
        decide (dmn.proTxHash = ptx.proTxHash)
      require own 10 "bad-protx-dup-addr"
      require (decide (ptx.scriptOperatorPayout = []) || decide (mn.nOperatorReward ≠ 0)) 10
        "bad-protx-operator-payee"
      require (decide (ptx.scriptOperatorPayout = []) || ptx.scriptOperatorPayout.isPayToPublicKeyHash ||
        ptx.scriptOperatorPayout.isPayToScriptHash) 10 "bad-protx-operator-payee"
      checkInputsHash env tx ptx.inputsHash
      require (!(check_sigs && !env.verifyInsecureServ mn.pdmnState.pubKeyOperator ptx)) 100
        "bad-protx-sig"

/-- The collateral of a masternode that is updated, and where it is paid to. -/
def collateralDest (dmn : CDeterministicMN) (view : CCoinsView) :
    Except ProTxFailure CTxDestination :=
  match view dmn.collateralOutpoint with
  | none => .error (.reject (.dos 100 "bad-protx-collateral"))
  | some coin => do
      require (!coin.isSpent) 100 "bad-protx-collateral"
      match extractDestination env.hash160 coin.out.scriptPubKey with
      | none => .error (.reject (.dos 100 "bad-protx-collateral-dest"))
      | some dest => .ok dest

def checkProUpRegTx (view : CCoinsView) (check_sigs : Bool) : Except ProTxFailure Unit := do
  require (decide (tx.nType = .providerUpdateRegistrar)) 100 "bad-protx-type"
  let ptx <- payloadOf (CProUpRegTx.unserialize env.toPayloadEnv) tx
  ptx.isTriviallyValid env.toPayloadEnv
  match extractDestination env.hash160 ptx.scriptPayout with
  | none => .error (.reject (.dos 10 "bad-protx-payee-dest"))
  | some payoutDest =>
    match pindexPrev with
    | none => pure ()
    | some prev => do
        let dmn <- listedMN mnList ptx.proTxHash
        require (!(isKey payoutDest dmn.pdmnState.keyIDOwner || isKey payoutDest ptx.keyIDVoting)) 10
          "bad-protx-payee-reuse"
        let collateralTxDest <- collateralDest env dmn view
        require (!(isKey collateralTxDest dmn.pdmnState.keyIDOwner ||
          isKey collateralTxDest ptx.keyIDVoting)) 10 "bad-protx-collateral-reuse"
        let own <- mnList.testOwner env.prim (.pubKeyOperator ptx.pubKeyOperator) fun otherDmn =>
          decide (ptx.proTxHash = otherDmn.proTxHash)
        require own 10 "bad-protx-dup-key"
        require (isDIP3Enforced env prev.nHeight ||
          decide (dmn.pdmnState.keyIDOwner = ptx.keyIDVoting)) 10 "bad-protx-key-not-same"
        checkInputsHash env tx ptx.inputsHash
        require (!(check_sigs && !env.verifyHash dmn.pdmnState.keyIDOwner ptx)) 100 "bad-protx-sig"

/-- `CheckProUpRevTx`.  The signature is checked in any case. -/
def checkProUpRevTx : Except ProTxFailure Unit := do
  require (decide (tx.nType = .providerUpdateRevoke)) 100 "bad-protx-type"
  let ptx <- payloadOf (CProUpRevTx.unserialize env.toPayloadEnv) tx
  ptx.isTriviallyValid
  match pindexPrev with
  | none => pure ()
  | some _ => do
      let dmn <- listedMN mnList ptx.proTxHash
      checkInputsHash env tx ptx.inputsHash
      require (env.verifyInsecureRev dmn.pdmnState.pubKeyOperator ptx) 100 "bad-protx-sig"

def checkSpecialTx (view : CCoinsView) (check_sigs : Bool) : Except ProTxFailure Unit :=
  if tx.nVersion ≠ 3 \/ tx.nType = .normal then pure ()
  else if (pindexPrev.map fun prev => decide (prev.nHeight + 1 < env.DIP0003Height)).getD false then
    .error (.reject (.dos 10 "bad-tx-type"))
  else
    match tx.nType with
    | .providerRegister => checkProRegTx env tx pindexPrev mnList view check_sigs
    | .providerUpdateService => checkProUpServTx env tx pindexPrev mnList check_sigs
    | .providerUpdateRegistrar => checkProUpRegTx env tx pindexPrev mnList view check_sigs
    | .providerUpdateRevoke => checkProUpRevTx env tx pindexPrev mnList
    | .other _ => .error (.reject (.dos 10 "bad-tx-type-check"))
    | _ => env.checkOtherSpecialTx tx

end StakeCubeCoin.Evo
