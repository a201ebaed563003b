import StakeCubeCoin.Chain.BlockIndex

namespace StakeCubeCoin.Chain

open Primitives Library BlockStatus

/-!
# The block index on disk

`CDiskBlockIndex` of `chain.h` and `CBlockTreeDB::LoadBlockIndexGuts` of `txdb.cpp`.  The
record of an entry does not have the height of the ProgPoW header, only that of the entry;
loading puts the height of the entry back into the header and checks the proof of work of
the result.
-/

def BlockStatus.toNat (status : BlockStatus) : Nat :=
  status.validity + 8 * status.haveData.toNat + 16 * status.haveUndo.toNat +
    32 * status.failedValid.toNat + 64 * status.failedChild.toNat +
    128 * status.conflictChainlock.toNat

def BlockStatus.ofNat (nStatus : Nat) : BlockStatus where
  validity := nStatus % 8
  haveData := nStatus.testBit 3
  haveUndo := nStatus.testBit 4
  failedValid := nStatus.testBit 5
  failedChild := nStatus.testBit 6
  conflictChainlock := nStatus.testBit 7

theorem BlockStatus.ofNat_toNat {status : BlockStatus} (small : status.validity < 8) :
    ofNat status.toNat = status := by
  have words : ∀ validity < 8,
    ∀ haveData haveUndo failedValid failedChild conflictChainlock,
      ofNat (toNat ⟨validity, haveData, haveUndo, failedValid, failedChild, conflictChainlock⟩) =
          ⟨validity, haveData, haveUndo, failedValid, failedChild, conflictChainlock⟩ := by
    decide +kernel
  exact words status.validity small _ _ _ _ _

theorem BlockStatus.toNat_lt {status : BlockStatus} (small : status.validity < 8) :
    status.toNat < 256 := by
  unfold toNat
  have data := status.haveData.toNat_lt
  have undo := status.haveUndo.toNat_lt
  have valid := status.failedValid.toNat_lt
  have child := status.failedChild.toNat_lt
  have conflict := status.conflictChainlock.toNat_lt
  omega

structure CDiskBlockIndex extends CBlockIndex where
  hash : Uint256 := 0
  hashPrev : Uint256 := 0
  deriving DecidableEq

def INT_MAX : Nat := 2 ^ 31 - 1
def UINT_MAX : Nat := 2 ^ 32 - 1

namespace CDiskBlockIndex

variable (prim : HashPrimitives)

/-- The constructor from an entry. -/
def ofIndex (hash : Uint256) (pindex : CBlockIndex) : CDiskBlockIndex :=
  { pindex with hash, hashPrev := pindex.pprev.getD 0 }

/-- The condition on the time that chooses the layout. -/
def progPowTime (nTime : BitVec 32) : Bool :=
  decide (SCC_GEN_TIME < nTime) && decide (prim.nPPSwitchTime <= nTime)

variable (obj : CDiskBlockIndex)

/-- The nonce and mix, in the layout that the time chooses. -/
def serializeNonce : List UInt8 :=
  if progPowTime prim obj.nTime then
    littleEndian 8 obj.nNonce64.toNat ++ littleEndian 32 obj.mix_hash.toNat
  else
    littleEndian 4 obj.nNonce.toNat

/-- `CDiskBlockIndex::Serialize`, for a stream of the given version. -/
def serialize (version : Nat) (obj : CDiskBlockIndex) : List UInt8 :=
  writeVarInt version ++ (writeVarInt obj.nHeight ++ (writeVarInt obj.nStatus.toNat ++
    (writeVarInt obj.nTx ++
    ((if obj.nStatus.haveData || obj.nStatus.haveUndo then writeVarInt obj.nFile else []) ++
    ((if obj.nStatus.haveData then writeVarInt obj.nDataPos else []) ++
    ((if obj.nStatus.haveUndo then writeVarInt obj.nUndoPos else []) ++
    (littleEndian 32 obj.hash.toNat ++ (littleEndian 4 obj.nVersion.toNat ++
    (littleEndian 32 obj.hashPrev.toNat ++ (littleEndian 32 obj.hashMerkleRoot.toNat ++
    (littleEndian 4 obj.nTime.toNat ++ (littleEndian 4 obj.nBits.toNat ++
      obj.serializeNonce prim))))))))))))

def unserializeNonce : Reader CDiskBlockIndex :=
  if progPowTime prim obj.nTime then do
    let nNonce64 <- readLittleEndian 8
    let mix_hash <- readLittleEndian 32
    pure { obj with nNonce64 := BitVec.ofNat 64 nNonce64, mix_hash := BitVec.ofNat 256 mix_hash }
  else do
    let nNonce <- readLittleEndian 4
    pure { obj with nNonce := BitVec.ofNat 32 nNonce }

/-- `CDiskBlockIndex::Unserialize`, into a null record. -/
def unserialize : Reader CDiskBlockIndex := do
  let _ <- readVarInt INT_MAX
  let nHeight <- readVarInt INT_MAX
  let nStatus <- readVarInt UINT_MAX
  let nTx <- readVarInt UINT_MAX
  let status := ofNat nStatus
  let nFile <- readIf (status.haveData || status.haveUndo) (readVarInt INT_MAX) 0
  let nDataPos <- readIf status.haveData (readVarInt UINT_MAX) 0
  let nUndoPos <- readIf status.haveUndo (readVarInt UINT_MAX) 0
  let hash <- readLittleEndian 32
  let nVersion <- readLittleEndian 4
  let hashPrev <- readLittleEndian 32
  let hashMerkleRoot <- readLittleEndian 32
  let nTime <- readLittleEndian 4
  let nBits <- readLittleEndian 4
  unserializeNonce prim
    { nHeight, nStatus := status, nTx, nFile, nDataPos,
      nUndoPos, hash := BitVec.ofNat 256 hash, nVersion := BitVec.ofNat 32 nVersion,
      hashPrev := BitVec.ofNat 256 hashPrev, hashMerkleRoot := BitVec.ofNat 256 hashMerkleRoot,
      nTime := BitVec.ofNat 32 nTime, nBits := BitVec.ofNat 32 nBits }

def getBlockHash : Uint256 :=
  if obj.hash ≠ 0 then
    obj.hash
  else
    ({ obj.toCBlockIndex with pprev := some obj.hashPrev }.getBlockHeader prim).getHash prim

end CDiskBlockIndex

/-! ## Reading a record back -/

/-- The numbers of an entry fit into their types. -/
structure Storable (entry : CBlockIndex) : Prop where
  nHeight : entry.nHeight <= INT_MAX
  nFile : entry.nFile <= INT_MAX
  nDataPos : entry.nDataPos <= UINT_MAX
  nUndoPos : entry.nUndoPos <= UINT_MAX
  nTx : entry.nTx <= UINT_MAX
  validity : entry.nStatus.validity < 8

namespace CDiskBlockIndex

variable {prim : HashPrimitives}

/-- The nonce and mix of a record as they are read back: those of the other layout are null. -/
def withNonce (prim : HashPrimitives) (obj read : CDiskBlockIndex) : CDiskBlockIndex :=
  if progPowTime prim obj.nTime then
    { read with nNonce64 := obj.nNonce64, mix_hash := obj.mix_hash }
  else
    { read with nNonce := obj.nNonce }

/-- A record as it is read back: what is only in memory is null. -/
def readBack (prim : HashPrimitives) (obj : CDiskBlockIndex) : CDiskBlockIndex :=
  obj.withNonce prim
    { nHeight := obj.nHeight, nStatus := obj.nStatus, nTx := obj.nTx
      nFile := if obj.nStatus.haveData || obj.nStatus.haveUndo then obj.nFile else 0
      nDataPos := if obj.nStatus.haveData then obj.nDataPos else 0
      nUndoPos := if obj.nStatus.haveUndo then obj.nUndoPos else 0
      hash := obj.hash, nVersion := obj.nVersion, hashPrev := obj.hashPrev
      hashMerkleRoot := obj.hashMerkleRoot, nTime := obj.nTime, nBits := obj.nBits }

theorem reads_serializeNonce (obj read : CDiskBlockIndex) (sameTime : read.nTime = obj.nTime) :
    Reads (unserializeNonce prim read) (obj.serializeNonce prim) (obj.withNonce prim read) := by
  have layout : progPowTime prim read.nTime = progPowTime prim obj.nTime := by
    rw [sameTime]
  unfold unserializeNonce serializeNonce withNonce
  rw [layout]
  split
  · refine (reads_bitVec obj.nNonce64 (by decide)).bind (Reads.last (reads_bitVec obj.mix_hash
      (by decide)) ?_)
    simp
  · refine Reads.last (reads_bitVec obj.nNonce (by decide)) ?_
    simp

theorem reads_serialize {version : Nat} {obj : CDiskBlockIndex}
    (storable : Storable obj.toCBlockIndex) (versionFits : version <= INT_MAX) :
    Reads (unserialize prim) (obj.serialize prim version) (obj.readBack prim) := by
  have statusFits : obj.nStatus.toNat <= UINT_MAX :=
    le_of_lt (Nat.lt_trans (toNat_lt storable.validity) (by decide))
  have status := ofNat_toNat storable.validity
  refine (reads_writeVarInt versionFits).bind ?_
  refine (reads_writeVarInt storable.nHeight).bind ?_
  refine (reads_writeVarInt statusFits).bind ?_
  refine (reads_writeVarInt storable.nTx).bind ?_
  simp only [status]
  refine (reads_readIf fun _ => reads_writeVarInt storable.nFile).bind ?_
  refine (reads_readIf fun _ => reads_writeVarInt storable.nDataPos).bind ?_
  refine (reads_readIf fun _ => reads_writeVarInt storable.nUndoPos).bind ?_
  refine (reads_bitVec obj.hash (by decide)).bind ?_
  refine (reads_bitVec obj.nVersion (by decide)).bind ?_
  refine (reads_bitVec obj.hashPrev (by decide)).bind ?_
  refine (reads_bitVec obj.hashMerkleRoot (by decide)).bind ?_
  refine (reads_bitVec obj.nTime (by decide)).bind ?_
  refine (reads_bitVec obj.nBits (by decide)).bind ?_
  simp only [BitVec.ofNat_toNat, BitVec.setWidth_eq]
  exact reads_serializeNonce obj _ rfl

end CDiskBlockIndex

/-- `BlockManager::InsertBlockIndex`: the pointer, null for a null hash, and the index with an entry
for the hash. -/
def insertBlockIndex (map : BlockMap) (hash : Uint256) : Option Uint256 × BlockMap :=
  if hash = 0 then (none, map)
  else
    match map hash with
    | some _ => (some hash, map)
    | none => (some hash, Function.update map hash (some {}))

variable (prim : HashPrimitives) (checkProofOfWork : Uint256 -> BitVec 32 -> Bool)

/-- The assignments of one round of `LoadBlockIndexGuts` to the entry. -/
def loadedEntry (pindexNew : CBlockIndex) (pprev : Option Uint256) (diskindex : CDiskBlockIndex) :
    CBlockIndex :=
  let progPow := CDiskBlockIndex.progPowTime prim diskindex.nTime
  { pindexNew with
    pprev := pprev
    nHeight := diskindex.nHeight
    nFile := diskindex.nFile
    nDataPos := diskindex.nDataPos
    nUndoPos := diskindex.nUndoPos
    nVersion := diskindex.nVersion
    hashMerkleRoot := diskindex.hashMerkleRoot
    nTime := diskindex.nTime
    nBits := diskindex.nBits
    nNonce := diskindex.nNonce
    nStatus := diskindex.nStatus
    nTx := diskindex.nTx
    nNonce64 := if progPow then diskindex.nNonce64 else pindexNew.nNonce64
    mix_hash := if progPow then diskindex.mix_hash else pindexNew.mix_hash }

/-- One round of `LoadBlockIndexGuts`.  There is no result if the value cannot be read, the entry is
null or its proof of work fails. -/
def loadRecord (map : BlockMap) (value : List UInt8) : Option BlockMap := do
  let (diskindex, _) <- (CDiskBlockIndex.unserialize prim).run value
  let (pindexNew, inserted) := insertBlockIndex map (diskindex.getBlockHash prim)
  let hash <- pindexNew
  let (pprev, linked) := insertBlockIndex inserted diskindex.hashPrev
  let entry := loadedEntry prim (linked.entry hash) pprev diskindex
  if checkProofOfWork (entry.getBlockPoWHash prim) entry.nBits then
    some (Function.update linked hash (some entry))
  else
    none

/-- `CBlockTreeDB::LoadBlockIndexGuts`, over the values of the records in their order. -/
def loadBlockIndexGuts (values : List (List UInt8)) (map : BlockMap) : Option BlockMap :=
  values.foldlM (loadRecord prim checkProofOfWork) map

end StakeCubeCoin.Chain
