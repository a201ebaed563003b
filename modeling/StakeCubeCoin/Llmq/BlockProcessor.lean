import StakeCubeCoin.Library.LruCache
import StakeCubeCoin.Library.Threads
import StakeCubeCoin.Llmq.Commitment
import StakeCubeCoin.Validation.Node

namespace StakeCubeCoin.Llmq

open Primitives Library Evo Validation Function

/-!
# The block processor of quorums

`CQuorumBlockProcessor` of `llmq/blockprocessor.{h,cpp}`.  It records the commitments that were
mined and answers whether one was.  Its answers are cached; blocks are processed by one thread,
under `cs_main`, while other threads ask for answers without it, so all functions are programs
cut into the sections during which a lock is held.
-/

/-- How a call ends when it does not return true. -/
inductive ProcessorFailure where
  | reject (rejection : Rejection)
  | assertion (expression : String)
  | outOfRange
  deriving DecidableEq

/-- Consensus parameters and code of other files: the types enabled after a block, the members of a
quorum, and the check of both signatures. -/
structure LlmqEnv where
  scheme : BlsScheme
  hash256 : List UInt8 -> Uint256
  llmqs : List LLMQParams
  distinct : (llmqs.map LLMQParams.type).Nodup
  DIP0003Height : Nat
  isQuorumTypeEnabled : LLMQType -> Option Uint256 -> Bool
  membersSize : LLMQParams -> Uint256 -> Nat
  verifySignatures : CFinalCommitment -> Bool

namespace LlmqEnv

variable (env : LlmqEnv)

/-- `GetLLMQParams`, which asserts that there are such parameters. -/
def getLLMQParams (llmqType : LLMQType) : Option LLMQParams :=
  env.llmqs.find? fun params => params.type == llmqType

def getEnabledQuorumParams (pprev : Option Uint256) : List LLMQParams :=
  env.llmqs.filter fun params => env.isQuorumTypeEnabled params.type pprev

def serializeHash (qc : CFinalCommitment) : Uint256 :=
  env.hash256 qc.serialize

end LlmqEnv

namespace CFinalCommitment

variable (env : LlmqEnv)

def verifyNull (qc : CFinalCommitment) : Bool :=
  match env.getLLMQParams qc.llmqType with
  | none => false
  | some params => qc.isNull env.scheme && qc.verifySizes params

def verify (qc : CFinalCommitment) (pQuorumBaseBlockIndex : Uint256) (checkSigs : Bool) : Bool :=
  if qc.nVersion = 0 || CURRENT_VERSION < qc.nVersion then false
  else
    match env.getLLMQParams qc.llmqType with
    | none => false
    | some params =>
      if !qc.verifySizes params then false
      else if qc.countValidMembers < params.minSize then false
      else if qc.countSigners < params.minSize then false
      else if !env.scheme.isValidPublicKey qc.quorumPublicKey then false
      else if qc.quorumVvecHash.isNull then false
      else if !env.scheme.isValidSignature qc.membersSig then false
      else if !env.scheme.isValidSignature qc.quorumSig then false
      else
        let members := env.membersSize params pQuorumBaseBlockIndex
        -- Members beyond those there are can neither be valid nor have signed.
        if (qc.validMembers.drop members).any id || (qc.signers.drop members).any id then false
        else if checkSigs then env.verifySignatures qc
        else true

end CFinalCommitment

/-- The hashes of the active chain, genesis first, and the heights of all known blocks. -/
structure ChainView where
  hashes : List Uint256
  lookupBlockIndex : Uint256 -> Option Nat
  indexed : ∀ nHeight hash, hashes[nHeight]? = some hash -> lookupBlockIndex hash = some nHeight

variable (params : LLMQParams)

def isMiningPhase (nHeight : Nat) : Bool :=
  let phaseIndex := nHeight % params.dkgInterval
  decide (params.dkgMiningWindowStart <= phaseIndex) &&
    decide (phaseIndex <= params.dkgMiningWindowEnd)

/-- `CQuorumBlockProcessor::GetQuorumBlockHash`: null when the first block of the interval is
not in the active chain. -/
def getQuorumBlockHash (chain : ChainView) (nHeight : Nat) : Uint256 :=
  (chain.hashes[nHeight - nHeight % params.dkgInterval]?).getD 0

/-! ## Commitments of a block -/

section

variable (env : LlmqEnv)

def readCommitment (tx : CTransaction) : Option CFinalCommitment :=
  (getTxPayload (CFinalCommitmentTxPayload.unserialize env.scheme) tx).map
    CFinalCommitmentTxPayload.commitment

def emplaceCommitment (qc : CFinalCommitment) : List CFinalCommitment -> List CFinalCommitment
  | [] => [qc]
  | other :: rest =>
    if qc.llmqType < other.llmqType then qc :: other :: rest
    else other :: emplaceCommitment qc rest

def collectCommitments : List CTransaction -> List CFinalCommitment ->
    Except Rejection (List CFinalCommitment)
  | [], ret => .ok ret
  | tx :: rest, ret =>
    if tx.nType = .quorumCommitment then
      match readCommitment env tx with
      | none => .error (.dos 100 "bad-qc-payload")
      | some qc =>
        if ret.any fun other => other.llmqType == qc.llmqType then
          .error (.dos 100 "bad-qc-dup")
        else collectCommitments rest (emplaceCommitment qc ret)
    else collectCommitments rest ret

def getCommitmentsFromBlock (vtx : List CTransaction) (nHeight : Nat) :
    Except Rejection (List CFinalCommitment) :=
  match collectCommitments env vtx [] with
  | .error rejection => .error rejection
  | .ok ret =>
    if nHeight < env.DIP0003Height && !ret.isEmpty then
      .error (.dos 100 "bad-qc-premature")
    else .ok ret

end

/-! ## The state and its sections -/

/-- `CQuorumBlockProcessor` with the database it writes to. -/
structure ProcessorState where
  evoDb : CEvoDB
  mapHasMinedCommitmentCache : LLMQType -> LruCache Uint256 Bool
  minableCommitmentsByQuorum : Store (LLMQType × Uint256) Uint256 := fun _ => none
  minableCommitments : Store Uint256 CFinalCommitment := fun _ => none

variable (llmqType : LLMQType)

def minedKey (quorumHash : Uint256) : EvoKey :=
  .minedCommitment llmqType.toNat quorumHash

/-- The key of the record of the height at which a commitment was mined. -/
def inversedHeightKey (nMinedHeight : Nat) : EvoKey :=
  .minedCommitmentByInversedHeight llmqType.toNat nMinedHeight

/-- The record of a mined commitment: the commitment and the hash of the block. -/
def minedRecord (qc : CFinalCommitment) (blockHash : Uint256) : EvoValue :=
  .other (qc.serialize ++ littleEndian 32 blockHash.toNat)

/-- The record of the height of the first block of the interval. -/
def heightRecord (nHeight : Nat) : EvoValue :=
  .other (littleEndian 4 nHeight)

namespace ProcessorState

def fresh (env : LlmqEnv) (evoDb : CEvoDB) : ProcessorState where
  evoDb := evoDb
  mapHasMinedCommitmentCache := fun llmqType =>
    .empty (((env.getLLMQParams llmqType).map LLMQParams.signingActiveQuorumCount).getD 0 + 1)

variable (state : ProcessorState) (llmqType : LLMQType) (quorumHash : Uint256)

def hasRecord : Bool :=
  (state.evoDb.read (minedKey llmqType quorumHash)).isSome

def apply (op : EvoOp) : ProcessorState :=
  { state with evoDb := state.evoDb.apply [op] }

def setCache (change : LruCache Uint256 Bool -> LruCache Uint256 Bool) : ProcessorState :=
  { state with
    mapHasMinedCommitmentCache := update state.mapHasMinedCommitmentCache llmqType
      (change (state.mapHasMinedCommitmentCache llmqType)) }

/-- `mapHasMinedCommitmentCache[llmqType].get`. -/
def cacheGet : Option Bool × ProcessorState :=
  (((state.mapHasMinedCommitmentCache llmqType).get quorumHash).1,
    state.setCache llmqType fun cache => (cache.get quorumHash).2)

/-- `mapHasMinedCommitmentCache[llmqType].insert`. -/
def cacheInsert (fExists : Bool) : ProcessorState :=
  state.setCache llmqType fun cache => cache.insert quorumHash fExists

/-- `mapHasMinedCommitmentCache[llmqType].erase`. -/
def cacheErase : ProcessorState :=
  state.setCache llmqType fun cache => cache.erase quorumHash

/-- The locked section of `AddMineableCommitment`.  The overridden entry is looked up after it was
changed, so what is erased is that of the new commitment. -/
def addMineableCommitment (env : LlmqEnv) (fqc : CFinalCommitment) (state : ProcessorState) :
    Except ProcessorFailure Unit × ProcessorState :=
  let commitmentHash := env.serializeHash fqc
  let k := (fqc.llmqType, fqc.quorumHash)
  match state.minableCommitmentsByQuorum k with
  | none =>
    (.ok (), { state with
      minableCommitmentsByQuorum := update state.minableCommitmentsByQuorum k commitmentHash
      minableCommitments :=
        if (state.minableCommitments commitmentHash).isSome then state.minableCommitments
        else update state.minableCommitments commitmentHash fqc })
  | some old =>
    match state.minableCommitments old with
    | none => (.error .outOfRange, state)
    | some oldFqc =>
      if oldFqc.countSigners < fqc.countSigners then
        (.ok (), { state with
          minableCommitmentsByQuorum := update state.minableCommitmentsByQuorum k commitmentHash
          minableCommitments := update state.minableCommitments commitmentHash fqc })
      else (.ok (), state)

/-- The locked section of `ProcessCommitment`: the commitment can no longer be mined. -/
def dropMineableCommitment (env : LlmqEnv) (qc : CFinalCommitment) (state : ProcessorState) :
    ProcessorState :=
  let erased := state.cacheErase qc.llmqType qc.quorumHash
  { erased with
    minableCommitmentsByQuorum :=
      update erased.minableCommitmentsByQuorum (qc.llmqType, qc.quorumHash) none
    minableCommitments := update erased.minableCommitments (env.serializeHash qc) none }

end ProcessorState

abbrev ProcessorProgram (α : Type) := Program ProcessorState α

/-- A method that returns true or fails. -/
abbrev ProcessorMethod := ProcessorProgram (Except ProcessorFailure Unit)

def writeEvo (op : EvoOp) : ProcessorProgram Unit :=
  .atomically fun state => ((), state.apply op)

/-- `CQuorumBlockProcessor::HasMinedCommitment`: three sections, unless the answer is cached. -/
def hasMinedCommitment (quorumHash : Uint256) : ProcessorProgram Bool :=
  (Program.atomically fun state => state.cacheGet llmqType quorumHash).bind fun
    | some fExists => .done fExists
    | none =>
      (Program.atomically fun state => (state.hasRecord llmqType quorumHash, state)).bind fun fExists =>
        .atomically fun state => (fExists, state.cacheInsert llmqType quorumHash fExists)

def isCommitmentRequired (chain : ChainView) (nHeight : Nat) : ProcessorProgram Bool :=
  let quorumHash := getQuorumBlockHash params chain nHeight
  if quorumHash.isNull then .done false
  else
    (hasMinedCommitment params.type quorumHash).bind fun mined =>
      .done (isMiningPhase params nHeight && !mined)

variable (env : LlmqEnv) (chain : ChainView)

def reject (reason : String) : ProcessorMethod :=
  .done (.error (.reject (.dos 100 reason)))

variable (nHeight : Nat) (blockHash : Uint256) (qc : CFinalCommitment)

/-- The records that `ProcessCommitment` writes. -/
def storeOps : List EvoOp :=
  [.write (minedKey qc.llmqType qc.quorumHash) (minedRecord qc blockHash),
    .write (inversedHeightKey qc.llmqType nHeight)
      (heightRecord ((chain.lookupBlockIndex qc.quorumHash).getD 0))]

def storeCommitment : ProcessorMethod :=
  (writeEvo (.write (minedKey qc.llmqType qc.quorumHash) (minedRecord qc blockHash))).bind fun _ =>
    (writeEvo (.write (inversedHeightKey qc.llmqType nHeight)
      (heightRecord ((chain.lookupBlockIndex qc.quorumHash).getD 0)))).bind fun _ =>
      .atomically fun state => (.ok (), state.dropMineableCommitment env qc)

/-- The hash that a commitment must name.  While blocks are replayed after a crash there is no
active chain, and its own hash is taken. -/
def expectedQuorumHash (params : LLMQParams) (nHeight : Nat) (qc : CFinalCommitment) : Uint256 :=
  if chain.hashes.isEmpty then qc.quorumHash else getQuorumBlockHash params chain nHeight

/-- The part of `ProcessCommitment` for a commitment that is not null. -/
def processMined (params : LLMQParams) (nHeight : Nat) (blockHash : Uint256)
    (fJustCheck fBLSChecks : Bool) (qc : CFinalCommitment) (quorumHash : Uint256) :
    ProcessorMethod :=
  (hasMinedCommitment params.type quorumHash).bind fun mined =>
    if mined then reject "bad-qc-dup"
    else if !isMiningPhase params nHeight then reject "bad-qc-height"
    else if !qc.verify env quorumHash fBLSChecks then reject "bad-qc-invalid"
    else if fJustCheck then .done (.ok ())
    else storeCommitment env chain nHeight blockHash qc

def processCommitment (fJustCheck fBLSChecks : Bool) (qc : CFinalCommitment) : ProcessorMethod :=
  match env.getLLMQParams qc.llmqType with
  | none => .done (.error (.assertion "false"))
  | some params =>
    let quorumHash := expectedQuorumHash chain params nHeight qc
    if quorumHash.isNull then reject "bad-qc-block"
    else if quorumHash ≠ qc.quorumHash then reject "bad-qc-block"
    else if qc.isNull env.scheme then
      if !qc.verifyNull env then reject "bad-qc-invalid-null" else .done (.ok ())
    else processMined env chain params nHeight blockHash fJustCheck fBLSChecks qc quorumHash

/-- The check of `ProcessBlock` for one type of quorum. -/
def checkRequired (qcs : List CFinalCommitment) (nHeight : Nat) (params : LLMQParams) :
    ProcessorMethod :=
  let hasCommitmentInNewBlock := qcs.any fun qc => qc.llmqType == params.type
  (isCommitmentRequired params chain nHeight).bind fun required =>
    if hasCommitmentInNewBlock && !required then reject "bad-qc-not-allowed"
    else if !hasCommitmentInNewBlock && required then reject "bad-qc-missing"
    else .done (.ok ())

/-- Go on with a program unless the one before has failed. -/
def andThen (first second : ProcessorMethod) : ProcessorMethod :=
  first.bind fun
    | .error failure => .done (.error failure)
    | .ok () => second

def writeBestBlockUpgrade (hash : Uint256) : ProcessorMethod :=
  (writeEvo (.write .bestBlockUpgrade (.hash hash))).bind fun _ => .done (.ok ())

def processBlock (vtx : List CTransaction) (pindex : BlockPosition) (fJustCheck fBLSChecks : Bool) :
    ProcessorMethod :=
  if pindex.nHeight < env.DIP0003Height then writeBestBlockUpgrade pindex.hash
  else
    match getCommitmentsFromBlock env vtx pindex.nHeight with
    | .error rejection => .done (.error (.reject rejection))
    | .ok qcs =>
      andThen
        (if chain.hashes.isEmpty then .done (.ok ())
          else Program.tryEach (checkRequired chain qcs pindex.nHeight)
            (env.getEnabledQuorumParams (pindex.pprev.map Validation.PrevPosition.hash)))
        (andThen (Program.tryEach
            (processCommitment env chain pindex.nHeight pindex.hash fJustCheck fBLSChecks) qcs)
          (writeBestBlockUpgrade pindex.hash))

/-- What `UndoBlock` does for one commitment. -/
def undoCommitment : ProcessorMethod :=
  if qc.isNull env.scheme then .done (.ok ())
  else
    (writeEvo (.erase (minedKey qc.llmqType qc.quorumHash))).bind fun _ =>
      (writeEvo (.erase (inversedHeightKey qc.llmqType nHeight))).bind fun _ =>
        (Program.atomically fun state => ((), state.cacheErase qc.llmqType qc.quorumHash)).bind fun _ =>
          .atomically fun state => state.addMineableCommitment env qc

def undoBlock (vtx : List CTransaction) (pindex : BlockPosition) : ProcessorMethod :=
  match getCommitmentsFromBlock env vtx pindex.nHeight with
  | .error rejection => .done (.error (.reject rejection))
  | .ok qcs =>
    andThen (Program.tryEach (undoCommitment env pindex.nHeight) qcs)
      (match pindex.pprev with
        | none => .done (.error (.assertion "pindex->pprev"))
        | some prev => writeBestBlockUpgrade prev.hash)

end StakeCubeCoin.Llmq
