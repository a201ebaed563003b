import StakeCubeCoin.Evo.MNList
import StakeCubeCoin.Library.Run
import StakeCubeCoin.Llmq.Commitment
import StakeCubeCoin.Validation.Checks

namespace StakeCubeCoin.Evo

open Primitives Library Validation CScript CBLSLazyPublicKey List

/-!
# Provider transactions

The payloads of `evo/providertx.{h,cpp}`, which register, update and revoke masternodes,
with their serialization and the checks that need no context.  Addresses are written in
the format before BIP155, and destinations are extracted from scripts as in
`script/standard.cpp`.
-/

/-- `CTxDestination`, without the alternative for no destination. -/
inductive CTxDestination where
  | keyID (value : CKeyID)
  | scriptID (value : BitVec 160)
  deriving DecidableEq

def uint160OfBytes (bytes : List UInt8) : BitVec 160 :=
  BitVec.ofNat 160 (ofLittleEndian bytes)

namespace CPubKey

def SIZE : Nat := 65
def COMPRESSED_SIZE : Nat := 33

def getLen (chHeader : UInt8) : Nat :=
  if chHeader = 2 || chHeader = 3 then COMPRESSED_SIZE
  else if chHeader = 4 || chHeader = 6 || chHeader = 7 then SIZE
  else 0

def validSize (vch : List UInt8) : Bool :=
  match vch with
  | [] => false
  | chHeader :: _ => getLen chHeader == vch.length

end CPubKey

def matchPayToPubkey (script : CScript) : Option (List UInt8) :=
  let pubkey := (script.drop 1).take (script.length - 2)
  if script.length = CPubKey.SIZE + 2 /\ script.head? = some 65 /\
    script.getLast? = some Opcode.OP_CHECKSIG then
    if CPubKey.validSize pubkey then some pubkey else none
  else if script.length = CPubKey.COMPRESSED_SIZE + 2 /\ script.head? = some 33 /\
    script.getLast? = some Opcode.OP_CHECKSIG then
    if CPubKey.validSize pubkey then some pubkey else none
  else none

/-- `ExtractDestination`.  Data, multisignature and nonstandard scripts match no template below. -/
def extractDestination (hash160 : List UInt8 -> List UInt8) (scriptPubKey : CScript) :
    Option CTxDestination :=
  if scriptPubKey.isPayToScriptHash then
    some (.scriptID (uint160OfBytes ((scriptPubKey.drop 2).take 20)))
  else
    match matchPayToPubkey scriptPubKey with
    | some pubkey => some (.keyID (uint160OfBytes (hash160 pubkey)))
    | none =>
      if scriptPubKey.isPayToPublicKeyHash then
        some (.keyID (uint160OfBytes ((scriptPubKey.drop 3).take 20)))
      else none

theorem isUnspendable_of_extractDestination {hash160 : List UInt8 -> List UInt8} {script : CScript}
    {dest : CTxDestination} (extracted : extractDestination hash160 script = some dest) :
    script.isUnspendable = false := by
  have spendable : ∀ (byte : UInt8), script.head? = some byte -> byte ≠ Opcode.OP_RETURN ->
    script.length <= MAX_SCRIPT_SIZE -> script.isUnspendable = false := by
    intro byte first notReturn short
    unfold isUnspendable
    rw [first]
    simp only [Bool.or_eq_false_iff, decide_eq_false_iff_not, not_lt]
    exact ⟨by simpa using notReturn, short⟩
  unfold extractDestination at extracted
  split at extracted
  · next scriptHash =>
    simp only [isPayToScriptHash, Bool.and_eq_true, beq_iff_eq] at scriptHash
    refine spendable Opcode.OP_HASH160 ?_ (by decide) ?_
    · rw [head?_eq_getElem?]
      exact scriptHash.1.1.2
    · rw [scriptHash.1.1.1]
      decide
  · split at extracted
    · next _ found =>
      simp only [matchPayToPubkey] at found
      split at found
      · next shape =>
        refine spendable 65 shape.2.1 (by decide) ?_
        rw [shape.1]
        decide
      · split at found
        · next shape =>
          refine spendable 33 shape.2.1 (by decide) ?_
          rw [shape.1]
          decide
        · cases found
    · split at extracted
      · next keyHash =>
        simp only [isPayToPublicKeyHash, Bool.and_eq_true, beq_iff_eq] at keyHash
        refine spendable Opcode.OP_DUP ?_ (by decide) ?_
        · rw [head?_eq_getElem?]
          exact keyHash.1.1.1.1.2
        · rw [keyHash.1.1.1.1.1]
          decide
      · cases extracted

namespace CService

def NET_IPV4 : Nat := 1
def NET_IPV6 : Nat := 2
def NET_ONION : Nat := 3
def NET_INTERNAL : Nat := 6

def IPV4_IN_IPV6_PREFIX : List UInt8 := [0, 0, 0, 0, 0, 0, 0, 0, 0, 0, 0xFF, 0xFF]
def TORV2_IN_IPV6_PREFIX : List UInt8 := [0xFD, 0x87, 0xD8, 0x7E, 0xEB, 0x43]
def INTERNAL_IN_IPV6_PREFIX : List UInt8 := [0xFD, 0x6B, 0x88, 0xC0, 0x87, 0x24]

def ADDR_IPV6_SIZE : Nat := 16
def ADDR_TORV3_SIZE : Nat := 32

variable (service : CService)

def isIPv4 : Bool :=
  service.m_net == NET_IPV4

def isIPv6 : Bool :=
  service.m_net == NET_IPV6

/-- `SerializeV1Array`.  What the format has no place for is written as zeros. -/
def serializeV1Array : List UInt8 :=
  if service.m_net = NET_IPV6 then service.m_addr
  else if service.m_net = NET_IPV4 then IPV4_IN_IPV6_PREFIX ++ service.m_addr
  else if service.m_net = NET_ONION /\ service.m_addr.length ≠ ADDR_TORV3_SIZE then
    TORV2_IN_IPV6_PREFIX ++ service.m_addr
  else if service.m_net = NET_INTERNAL then INTERNAL_IN_IPV6_PREFIX ++ service.m_addr
  else replicate ADDR_IPV6_SIZE 0

/-- `SetLegacyIPv6`: the network and the address. -/
def setLegacyIPv6 (ipv6 : List UInt8) : Nat × List UInt8 :=
  if IPV4_IN_IPV6_PREFIX.isPrefixOf ipv6 then (NET_IPV4, ipv6.drop 12)
  else if TORV2_IN_IPV6_PREFIX.isPrefixOf ipv6 then (NET_ONION, ipv6.drop 6)
  else if INTERNAL_IN_IPV6_PREFIX.isPrefixOf ipv6 then (NET_INTERNAL, ipv6.drop 6)
  else (NET_IPV6, ipv6)

def serialize : List UInt8 :=
  service.serializeV1Array ++ writeBigEndian 2 service.port

def unserialize : Reader CService := do
  let ipv6 <- readBytes ADDR_IPV6_SIZE
  let port <- readBigEndian 2
  pure { m_net := (setLegacyIPv6 ipv6).1, m_addr := (setLegacyIPv6 ipv6).2, port }

def Readable : Prop :=
  (∃ ipv6 : List UInt8, ipv6.length = ADDR_IPV6_SIZE /\
    setLegacyIPv6 ipv6 = (service.m_net, service.m_addr)) /\ service.port < 256 ^ 2

theorem readable_null : Readable null :=
  ⟨⟨replicate 16 0, rfl, rfl⟩, by decide⟩

theorem append_drop_of_isPrefixOf {front bytes : List UInt8} {size : Nat}
    (front_length : front.length = size) (starts : front.isPrefixOf bytes = true) :
    front ++ bytes.drop size = bytes := by
  rcases isPrefixOf_iff_prefix.mp starts with ⟨_, whole⟩
  rw [<- whole, drop_left' front_length]

theorem serializeV1Array_of_setLegacyIPv6 {service : CService} {ipv6 : List UInt8}
    (size : ipv6.length = ADDR_IPV6_SIZE)
    (set : setLegacyIPv6 ipv6 = (service.m_net, service.m_addr)) :
    service.serializeV1Array = ipv6 := by
  rcases service with ⟨_, _, _⟩
  simp only [setLegacyIPv6] at set
  split at set
  · next ipv4 =>
    cases set
    exact append_drop_of_isPrefixOf rfl ipv4
  split at set
  · next onion =>
    have short : (ipv6.drop 6).length ≠ ADDR_TORV3_SIZE := by
      rw [length_drop, size]
      decide
    cases set
    simp only [serializeV1Array, NET_ONION, NET_IPV6, NET_IPV4, Nat.reduceEqDiff, if_false,
      true_and, if_pos short]
    exact append_drop_of_isPrefixOf rfl onion
  · split at set
    · next internal =>
      cases set
      exact append_drop_of_isPrefixOf rfl internal
    · cases set
      rfl

theorem reads_serialize {service : CService} (readable : Readable service) :
    Reads unserialize service.serialize service := by
  rcases readable with ⟨⟨_, size, set⟩, port⟩
  unfold serialize unserialize
  rw [serializeV1Array_of_setLegacyIPv6 size set]
  refine (reads_readBytes size).bind ?_
  refine Reads.last (reads_writeBigEndian port) ?_
  rw [set]

theorem gives_unserialize : Gives unserialize Readable := by
  refine (gives_readBytes _).bind ?_
  intro ipv6 size
  refine (gives_readBigEndian 2).bind ?_
  intro port small
  exact gives_pure ⟨⟨ipv6, size, rfl⟩, small⟩

end CService

/-- How the processing of a provider transaction ends when it does not succeed. -/
inductive ProTxFailure where
  | reject (rejection : Rejection)
  | exception (error : MNListError)
  deriving DecidableEq

/-- `state.DoS` unless the condition holds. -/
def require (condition : Bool) (nDoS : Nat) (reason : String) : Except ProTxFailure Unit :=
  if condition then .ok () else .error (.reject (.dos nDoS reason))

@[simp] theorem require_eq_ok_iff {condition : Bool} {nDoS : Nat} {reason : String}
    {result : Unit} :
    require condition nDoS reason = .ok result <-> condition = true := by
  unfold require
  cases condition <;> simp

/-- The payload of a transaction, which is rejected if there is none. -/
def payloadOf {α : Type} (reader : Reader α) (tx : CTransaction) : Except ProTxFailure α :=
  match Llmq.getTxPayload reader tx with
  | some payload => .ok payload
  | none => .error (.reject (.dos 100 "bad-protx-payload"))

theorem payloadOf_eq_ok_iff {α : Type} {reader : Reader α} {tx : CTransaction} {payload : α} :
    payloadOf reader tx = .ok payload <-> Llmq.getTxPayload reader tx = some payload := by
  unfold payloadOf
  split
  · next _ read => simp [read]
  · next read => simp [read]

namespace COutPointCodec

def serialize (outpoint : COutPoint) : List UInt8 :=
  littleEndian 32 outpoint.hash.toNat ++ littleEndian 4 outpoint.n

def unserialize : Reader COutPoint := do
  let hash <- readWord 256 32
  let n <- readLittleEndian 4
  pure ⟨hash, n⟩

theorem reads_serialize {outpoint : COutPoint} (fits : outpoint.n < 256 ^ 4) :
    Reads unserialize (serialize outpoint) outpoint := by
  refine (reads_readWord outpoint.hash (by decide)).bind ?_
  exact Reads.last (reads_littleEndian fits) rfl

theorem gives_unserialize : Gives unserialize fun outpoint => outpoint.n < 256 ^ 4 := by
  refine (gives_any _).bind ?_
  intro hash _
  refine (gives_readLittleEndian 4).bind ?_
  intro n small
  exact gives_pure small

end COutPointCodec

/-- `CBLSPublicKey::Unserialize`: bytes that are not written back are refused. -/
def readPublicKey (fromBytes : List UInt8 -> Bool) : Reader CBLSLazyPublicKey :=
  readTested (fun key => decide (key = null) || fromBytes key) (readBytes CBLSLazyPublicKey.SerSize)

/-- `CTxDestination(keyID)`. -/
def isKey (dest : CTxDestination) (keyID : CKeyID) : Bool :=
  decide (dest = .keyID keyID)

/-- What the payloads depend on that is computed in other files. -/
structure PayloadEnv (Hash : Type) where
  prim : Primitive Hash
  scheme : Llmq.BlsScheme
  hash160 : List UInt8 -> List UInt8

structure CProRegTx where
  nVersion : BitVec 16 := 1
  nType : BitVec 16 := 0
  nMode : BitVec 16 := 0
  collateralOutpoint : COutPoint
  addr : CService
  keyIDOwner : CKeyID
  pubKeyOperator : CBLSLazyPublicKey
  keyIDVoting : CKeyID
  nOperatorReward : BitVec 16 := 0
  scriptPayout : CScript
  inputsHash : Uint256
  vchSig : List UInt8
  deriving DecidableEq

structure CProUpServTx where
  nVersion : BitVec 16 := 1
  proTxHash : Uint256
  addr : CService
  scriptOperatorPayout : CScript
  inputsHash : Uint256
  sig : Llmq.CBLSSignature
  deriving DecidableEq

structure CProUpRegTx where
  nVersion : BitVec 16 := 1
  proTxHash : Uint256
  nMode : BitVec 16 := 0
  pubKeyOperator : CBLSLazyPublicKey
  keyIDVoting : CKeyID
  scriptPayout : CScript
  inputsHash : Uint256
  vchSig : List UInt8
  deriving DecidableEq

structure CProUpRevTx where
  nVersion : BitVec 16 := 1
  proTxHash : Uint256
  nReason : BitVec 16
  inputsHash : Uint256
  sig : Llmq.CBLSSignature
  deriving DecidableEq

/-- `CURRENT_VERSION`, which is the same for all payloads. -/
def CURRENT_VERSION : BitVec 16 := 1

/-- The check of the version, which is the same for all payloads. -/
def checkVersion (nVersion : BitVec 16) : Except ProTxFailure Unit :=
  require (decide (nVersion ≠ 0 /\ nVersion <= CURRENT_VERSION)) 100 "bad-protx-version"

section

variable {Hash : Type} (env : PayloadEnv Hash)

def CProRegTx.unserialize : Reader CProRegTx := do
  let nVersion <- readWord 16 2
  let nType <- readWord 16 2
  let nMode <- readWord 16 2
  let collateralOutpoint <- COutPointCodec.unserialize
  let addr <- CService.unserialize
  let keyIDOwner <- readWord 160 20
  let pubKeyOperator <- readPublicKey env.prim.fromBytes
  let keyIDVoting <- readWord 160 20
  let nOperatorReward <- readWord 16 2
  let scriptPayout <- readVector
  let inputsHash <- readWord 256 32
  let vchSig <- readVector
  pure
    { nVersion, nType, nMode, collateralOutpoint,
      addr, keyIDOwner, pubKeyOperator,
      keyIDVoting, nOperatorReward, scriptPayout,
      inputsHash, vchSig }

def CProUpServTx.unserialize : Reader CProUpServTx := do
  let nVersion <- readWord 16 2
  let proTxHash <- readWord 256 32
  let addr <- CService.unserialize
  let scriptOperatorPayout <- readVector
  let inputsHash <- readWord 256 32
  let sig <- env.scheme.readSignature
  pure
    { nVersion, proTxHash, addr,
      scriptOperatorPayout, inputsHash, sig }

def CProUpRegTx.unserialize : Reader CProUpRegTx := do
  let nVersion <- readWord 16 2
  let proTxHash <- readWord 256 32
  let nMode <- readWord 16 2
  let pubKeyOperator <- readPublicKey env.prim.fromBytes
  let keyIDVoting <- readWord 160 20
  let scriptPayout <- readVector
  let inputsHash <- readWord 256 32
  let vchSig <- readVector
  pure
    { nVersion, proTxHash, nMode, pubKeyOperator,
      keyIDVoting, scriptPayout, inputsHash,
      vchSig }

def CProUpRevTx.unserialize : Reader CProUpRevTx := do
  let nVersion <- readWord 16 2
  let proTxHash <- readWord 256 32
  let nReason <- readWord 16 2
  let inputsHash <- readWord 256 32
  let sig <- env.scheme.readSignature
  pure
    { nVersion, proTxHash, nReason, inputsHash,
      sig }

/-- `pubKeyOperator.IsValid()`. -/
def isValidKey (key : CBLSLazyPublicKey) : Bool :=
  isValid env.prim.fromBytes key

def CProRegTx.isTriviallyValid (ptx : CProRegTx) : Except ProTxFailure Unit := do
  checkVersion ptx.nVersion
  require (decide (ptx.nType = 0)) 100 "bad-protx-type"
  require (decide (ptx.nMode = 0)) 100 "bad-protx-mode"
  require (decide (ptx.keyIDOwner ≠ 0) && isValidKey env ptx.pubKeyOperator &&
    decide (ptx.keyIDVoting ≠ 0)) 10 "bad-protx-key-null"
  require (ptx.scriptPayout.isPayToPublicKeyHash || ptx.scriptPayout.isPayToScriptHash) 10
    "bad-protx-payee"
  match extractDestination env.hash160 ptx.scriptPayout with
  | none => .error (.reject (.dos 10 "bad-protx-payee-dest"))
  | some payoutDest => do
    require (!(isKey payoutDest ptx.keyIDOwner || isKey payoutDest ptx.keyIDVoting)) 10
      "bad-protx-payee-reuse"
    require (decide (ptx.nOperatorReward.toNat <= 10000)) 10 "bad-protx-operator-reward"

def CProUpServTx.isTriviallyValid (ptx : CProUpServTx) : Except ProTxFailure Unit :=
  checkVersion ptx.nVersion

def CProUpRegTx.isTriviallyValid (ptx : CProUpRegTx) : Except ProTxFailure Unit := do
  checkVersion ptx.nVersion
  require (decide (ptx.nMode = 0)) 100 "bad-protx-mode"
  require (isValidKey env ptx.pubKeyOperator &&
  decide (ptx.keyIDVoting ≠ 0)) 10 "bad-protx-key-null"
  require (ptx.scriptPayout.isPayToPublicKeyHash || ptx.scriptPayout.isPayToScriptHash) 10
    "bad-protx-payee"

def REASON_LAST : Nat := 3

def CProUpRevTx.isTriviallyValid (ptx : CProUpRevTx) : Except ProTxFailure Unit := do
  checkVersion ptx.nVersion
  require (decide (ptx.nReason.toNat <= REASON_LAST)) 100 "bad-protx-reason"

end

/-! ## What payloads can contain -/

variable {Hash : Type} (env : PayloadEnv Hash)

/-- The members of a registration are such as are written back. -/
structure CProRegTx.Readable (ptx : CProRegTx) : Prop where
  collateralOutpoint : ptx.collateralOutpoint.n < 256 ^ 4
  addr : ptx.addr.Readable
  pubKeyOperator : ptx.pubKeyOperator.length = CBLSLazyPublicKey.SerSize
  scriptPayout : ptx.scriptPayout.length <= MAX_SIZE

structure CProUpServTx.Readable (ptx : CProUpServTx) : Prop where
  addr : ptx.addr.Readable
  scriptOperatorPayout : ptx.scriptOperatorPayout.length <= MAX_SIZE

structure CProUpRegTx.Readable (ptx : CProUpRegTx) : Prop where
  pubKeyOperator : ptx.pubKeyOperator.length = CBLSLazyPublicKey.SerSize
  scriptPayout : ptx.scriptPayout.length <= MAX_SIZE

theorem gives_readPublicKey (fromBytes : List UInt8 -> Bool) :
    Gives (readPublicKey fromBytes) fun key => key.length = CBLSLazyPublicKey.SerSize := by
  refine (gives_readBytes _).bind ?_
  intro key size
  split
  · exact gives_pure size
  · intro bytes result rest read
    cases read

theorem CProRegTx.gives_unserialize : Gives (CProRegTx.unserialize env) CProRegTx.Readable := by
  refine (gives_any _).bind fun _ _ => ?_
  refine (gives_any _).bind fun _ _ => ?_
  refine (gives_any _).bind fun _ _ => ?_
  refine COutPointCodec.gives_unserialize.bind fun _ index => ?_
  refine CService.gives_unserialize.bind fun _ readable => ?_
  refine (gives_any _).bind fun _ _ => ?_
  refine (gives_readPublicKey _).bind fun _ size => ?_
  refine (gives_any _).bind fun _ _ => ?_
  refine (gives_any _).bind fun _ _ => ?_
  refine gives_readVector.bind fun _ short => ?_
  refine (gives_any _).bind fun _ _ => ?_
  refine (gives_any _).bind fun _ _ => ?_
  exact gives_pure ⟨index, readable, size, short⟩

theorem CProUpServTx.gives_unserialize :
    Gives (CProUpServTx.unserialize env) CProUpServTx.Readable := by
  refine (gives_any _).bind fun _ _ => ?_
  refine (gives_any _).bind fun _ _ => ?_
  refine CService.gives_unserialize.bind fun _ readable => ?_
  refine gives_readVector.bind fun _ short => ?_
  refine (gives_any _).bind fun _ _ => ?_
  refine (gives_any _).bind fun _ _ => ?_
  exact gives_pure ⟨readable, short⟩

theorem CProUpRegTx.gives_unserialize :
    Gives (CProUpRegTx.unserialize env) CProUpRegTx.Readable := by
  refine (gives_any _).bind fun _ _ => ?_
  refine (gives_any _).bind fun _ _ => ?_
  refine (gives_any _).bind fun _ _ => ?_
  refine (gives_readPublicKey _).bind fun _ size => ?_
  refine (gives_any _).bind fun _ _ => ?_
  refine gives_readVector.bind fun _ short => ?_
  refine (gives_any _).bind fun _ _ => ?_
  refine (gives_any _).bind fun _ _ => ?_
  exact gives_pure ⟨size, short⟩

end StakeCubeCoin.Evo
