import StakeCubeCoin.Library.Codec
import StakeCubeCoin.Primitives.Transaction

namespace StakeCubeCoin.Llmq

open Primitives Library

/-!
# Final commitments

`LLMQParams` of `llmq/params.h` and `CFinalCommitment` of `llmq/commitment.{h,cpp}` with its
serialization.  A BLS object that was read is either reset, which is written as zeros, or is
written as the bytes it was read from, so it is kept as these bytes; which bytes are a point
of the curve is a parameter.
-/

/-- `LLMQType`: the byte that is read from a commitment. -/
abbrev LLMQType := BitVec 8

/-- `LLMQParams`.  Every set of parameters of the source leaves the beginning of the interval
before the mining window and has quorums that sign. -/
structure LLMQParams where
  type : LLMQType
  size : Nat
  minSize : Nat
  threshold : Nat
  dkgInterval : Nat
  dkgMiningWindowStart : Nat
  dkgMiningWindowEnd : Nat
  signingActiveQuorumCount : Nat
  start_pos : 0 < dkgMiningWindowStart := by decide
  start_le_end : dkgMiningWindowStart <= dkgMiningWindowEnd := by decide
  end_lt_interval : dkgMiningWindowEnd < dkgInterval := by decide
  active_pos : 0 < signingActiveQuorumCount := by decide

def available_llmqs : List LLMQParams :=
  [ { type := 100, size := 3, minSize := 2, threshold := 2, dkgInterval := 24,
      dkgMiningWindowStart := 10, dkgMiningWindowEnd := 18, signingActiveQuorumCount := 2 },
    { type := 102, size := 3, minSize := 2, threshold := 2, dkgInterval := 24,
      dkgMiningWindowStart := 10, dkgMiningWindowEnd := 18, signingActiveQuorumCount := 2 },
    { type := 101, size := 10, minSize := 7, threshold := 6, dkgInterval := 24,
      dkgMiningWindowStart := 10, dkgMiningWindowEnd := 18, signingActiveQuorumCount := 3 },
    { type := 1, size := 50, minSize := 40, threshold := 30, dkgInterval := 24,
      dkgMiningWindowStart := 10, dkgMiningWindowEnd := 18, signingActiveQuorumCount := 24 },
    { type := 2, size := 400, minSize := 300, threshold := 240, dkgInterval := 24 * 12,
      dkgMiningWindowStart := 20, dkgMiningWindowEnd := 28, signingActiveQuorumCount := 4 },
    { type := 3, size := 400, minSize := 350, threshold := 340, dkgInterval := 24 * 24,
      dkgMiningWindowStart := 20, dkgMiningWindowEnd := 48, signingActiveQuorumCount := 4 },
    { type := 4, size := 100, minSize := 80, threshold := 67, dkgInterval := 24,
      dkgMiningWindowStart := 10, dkgMiningWindowEnd := 18, signingActiveQuorumCount := 24 } ]

abbrev CBLSPublicKey := BitVec 384

abbrev CBLSSignature := BitVec 768

/-- Which bytes are points of the curves, in the encoding that is written for them. -/
structure BlsScheme where
  decodesPublicKey : CBLSPublicKey -> Bool
  decodesSignature : CBLSSignature -> Bool

namespace BlsScheme

variable (scheme : BlsScheme)

def isValidPublicKey (key : CBLSPublicKey) : Bool :=
  decide (key ≠ 0) && scheme.decodesPublicKey key

def isValidSignature (sig : CBLSSignature) : Bool :=
  decide (sig ≠ 0) && scheme.decodesSignature sig

/-- `Unserialize` of a public key: bytes that are not written back are refused. -/
def readPublicKey : Reader CBLSPublicKey :=
  readTested (fun key => decide (key = 0) || scheme.decodesPublicKey key) (readWord 384 48)

def readSignature : Reader CBLSSignature :=
  readTested (fun sig => decide (sig = 0) || scheme.decodesSignature sig) (readWord 768 96)

end BlsScheme

structure CFinalCommitment where
  nVersion : BitVec 16 := 1
  llmqType : LLMQType := 0xff
  quorumHash : Uint256 := 0
  signers : List Bool := []
  validMembers : List Bool := []
  quorumPublicKey : CBLSPublicKey := 0
  quorumVvecHash : Uint256 := 0
  quorumSig : CBLSSignature := 0
  membersSig : CBLSSignature := 0
  deriving DecidableEq

namespace CFinalCommitment

def CURRENT_VERSION : BitVec 16 := 1

variable (qc : CFinalCommitment)

def countSigners : Nat :=
  qc.signers.count true

def countValidMembers : Nat :=
  qc.validMembers.count true

variable (scheme : BlsScheme)

def isNull (qc : CFinalCommitment) : Bool :=
  if qc.countSigners ≠ 0 || qc.countValidMembers ≠ 0 then false
  else if scheme.isValidPublicKey qc.quorumPublicKey || !qc.quorumVvecHash.isNull ||
      scheme.isValidSignature qc.membersSig || scheme.isValidSignature qc.quorumSig then false
  else true

def verifySizes (params : LLMQParams) (qc : CFinalCommitment) : Bool :=
  qc.signers.length == params.size && qc.validMembers.length == params.size

def serialize : List UInt8 :=
  littleEndian 2 qc.nVersion.toNat ++ (littleEndian 1 qc.llmqType.toNat ++
    (littleEndian 32 qc.quorumHash.toNat ++ (writeDynamicBitSet qc.signers ++
    (writeDynamicBitSet qc.validMembers ++ (littleEndian 48 qc.quorumPublicKey.toNat ++
    (littleEndian 32 qc.quorumVvecHash.toNat ++ (littleEndian 96 qc.quorumSig.toNat ++
      littleEndian 96 qc.membersSig.toNat)))))))

def unserialize : Reader CFinalCommitment := do
  let nVersion <- readWord 16 2
  let llmqType <- readWord 8 1
  let quorumHash <- readWord 256 32
  let signers <- readDynamicBitSet
  let validMembers <- readDynamicBitSet
  let quorumPublicKey <- scheme.readPublicKey
  let quorumVvecHash <- readWord 256 32
  let quorumSig <- scheme.readSignature
  let membersSig <- scheme.readSignature
  pure
    { nVersion, llmqType, quorumHash, signers,
      validMembers, quorumPublicKey,
      quorumVvecHash, quorumSig, membersSig }

/-- The commitment can have been read: its sets are not too large and its BLS objects are reset
or points. -/
structure Readable (scheme : BlsScheme) (qc : CFinalCommitment) : Prop where
  signers : qc.signers.length <= MAX_SIZE
  validMembers : qc.validMembers.length <= MAX_SIZE
  quorumPublicKey :
    (decide (qc.quorumPublicKey = 0) || scheme.decodesPublicKey qc.quorumPublicKey) = true
  quorumSig : (decide (qc.quorumSig = 0) || scheme.decodesSignature qc.quorumSig) = true
  membersSig : (decide (qc.membersSig = 0) || scheme.decodesSignature qc.membersSig) = true

theorem reads_serialize {scheme : BlsScheme} {qc : CFinalCommitment}
    (readable : Readable scheme qc) :
    Reads (unserialize scheme) qc.serialize qc := by
  refine (reads_readWord qc.nVersion (by decide)).bind ?_
  refine (reads_readWord qc.llmqType (by decide)).bind ?_
  refine (reads_readWord qc.quorumHash (by decide)).bind ?_
  refine (reads_writeDynamicBitSet readable.signers).bind ?_
  refine (reads_writeDynamicBitSet readable.validMembers).bind ?_
  refine (reads_readTested (reads_readWord qc.quorumPublicKey (by decide))
    readable.quorumPublicKey).bind ?_
  refine (reads_readWord qc.quorumVvecHash (by decide)).bind ?_
  refine (reads_readTested (reads_readWord qc.quorumSig (by decide)) readable.quorumSig).bind ?_
  exact Reads.last (reads_readTested (reads_readWord qc.membersSig (by decide)) readable.membersSig) rfl

theorem gives_unserialize : Gives (unserialize scheme) (Readable scheme) := by
  refine (gives_any _).bind ?_
  intro nVersion _
  refine (gives_any _).bind ?_
  intro llmqType _
  refine (gives_any _).bind ?_
  intro quorumHash _
  refine gives_readDynamicBitSet.bind ?_
  intro signers fewSigners
  refine gives_readDynamicBitSet.bind ?_
  intro validMembers fewMembers
  refine (gives_readTested _ _).bind ?_
  intro quorumPublicKey key
  refine (gives_any _).bind ?_
  intro quorumVvecHash _
  refine (gives_readTested _ _).bind ?_
  intro quorumSig quorum
  refine (gives_readTested _ _).bind ?_
  intro membersSig members
  exact gives_pure ⟨fewSigners, fewMembers, key, quorum, members⟩

end CFinalCommitment

structure CFinalCommitmentTxPayload where
  nVersion : BitVec 16 := 1
  nHeight : BitVec 32 := 0xffffffff
  commitment : CFinalCommitment
  deriving DecidableEq

namespace CFinalCommitmentTxPayload

def serialize (payload : CFinalCommitmentTxPayload) : List UInt8 :=
  littleEndian 2 payload.nVersion.toNat ++ (littleEndian 4 payload.nHeight.toNat ++
    payload.commitment.serialize)

def unserialize (scheme : BlsScheme) : Reader CFinalCommitmentTxPayload := do
  let nVersion <- readWord 16 2
  let nHeight <- readWord 32 4
  let commitment <- CFinalCommitment.unserialize scheme
  pure { nVersion, nHeight, commitment }

theorem gives_unserialize (scheme : BlsScheme) :
    Gives (unserialize scheme) fun payload => payload.commitment.Readable scheme := by
  refine (gives_any _).bind ?_
  intro nVersion _
  refine (gives_any _).bind ?_
  intro nHeight _
  refine (CFinalCommitment.gives_unserialize scheme).bind ?_
  intro commitment readable
  exact gives_pure readable

end CFinalCommitmentTxPayload

/-- `GetTxPayload`: the whole payload is one object. -/
def getTxPayload {α : Type} (reader : Reader α) (tx : CTransaction) : Option α :=
  match reader.run tx.vExtraPayload with
  | some (obj, []) => some obj
  | _ => none

theorem property_of_getTxPayload {α : Type} {reader : Reader α} {property : α -> Prop}
    (gives : Gives reader property) {tx : CTransaction} {obj : α}
    (read : getTxPayload reader tx = some obj) : property obj := by
  unfold getTxPayload at read
  split at read
  · next _ found =>
    cases read
    exact gives _ _ _ found
  · cases read

end StakeCubeCoin.Llmq
