import StakeCubeCoin.Library.Canonical
import StakeCubeCoin.Primitives.Transaction

namespace StakeCubeCoin.Primitives

open Library

/-!
# Block headers and blocks

`CBlockHeader` of `primitives/block.{h,cpp}` and `CProgPowHeader` of
`crypto/progpow.{h,cpp}`.  The header has two layouts, chosen by its own time: the
old one ends in a 32-bit nonce, the ProgPoW one in a height, a 64-bit nonce and the
mix hash.  The hash functions themselves are parameters.
-/

structure CBlockHeader where
  nVersion : BitVec 32
  hashPrevBlock : Uint256
  hashMerkleRoot : Uint256
  nTime : BitVec 32
  nBits : BitVec 32
  nNonce : BitVec 32 := 0
  nHeight : BitVec 32 := 0
  nNonce64 : BitVec 64 := 0
  mix_hash : Uint256 := 0
  deriving DecidableEq

structure CProgPowHeader where
  nVersion : BitVec 32
  hashPrevBlock : Uint256
  hashMerkleRoot : Uint256
  nTime : BitVec 32
  nBits : BitVec 32
  nHeight : BitVec 32
  nNonce64 : BitVec 64
  mix_hash : Uint256
  deriving DecidableEq

/-- The hash functions that the code calls, and the time of the switch to ProgPoW.  `progpowHash` is
`progpow::hash` with the epoch context of the height; it returns the final hash and the mix. -/
structure HashPrimitives where
  hashX11 : List UInt8 -> Uint256
  hash256 : List UInt8 -> Uint256
  progpowHash : BitVec 32 -> Uint256 -> BitVec 64 -> Uint256 × Uint256
  hashSeed : Uint256 -> BitVec 64 -> Uint256
  hashFinal : Uint256 -> Uint256 -> Uint256
  nPPSwitchTime : BitVec 32

def SCC_GEN_TIME : BitVec 32 := 1601898626

namespace CProgPowHeader

/-- `CProgPowHeader::SerializationOp`: neither the nonce nor the mix is written. -/
def serialize (header : CProgPowHeader) : List UInt8 :=
  littleEndian 4 header.nVersion.toNat ++ littleEndian 32 header.hashPrevBlock.toNat ++
    littleEndian 32 header.hashMerkleRoot.toNat ++ littleEndian 4 header.nTime.toNat ++
    littleEndian 4 header.nBits.toNat ++ littleEndian 4 header.nHeight.toNat

end CProgPowHeader

/-- `progpow_hash_full`: the final hash, and the mix it computes. -/
def progpow_hash_full (prim : HashPrimitives) (header : CProgPowHeader) : Uint256 × Uint256 :=
  prim.progpowHash header.nHeight (prim.hash256 header.serialize) header.nNonce64

/-- `progpow_hash_light`: the final hash for the mix in the header. -/
def progpow_hash_light (prim : HashPrimitives) (header : CProgPowHeader) : Uint256 :=
  prim.hashFinal (prim.hashSeed (prim.hash256 header.serialize) header.nNonce64) header.mix_hash

namespace CBlockHeader

variable (prim : HashPrimitives) (header : CBlockHeader)

def isProgPow : Bool :=
  decide (SCC_GEN_TIME < header.nTime) && decide (prim.nPPSwitchTime <= header.nTime)

def serialize : List UInt8 :=
  littleEndian 4 header.nVersion.toNat ++ littleEndian 32 header.hashPrevBlock.toNat ++
    littleEndian 32 header.hashMerkleRoot.toNat ++ littleEndian 4 header.nTime.toNat ++
    littleEndian 4 header.nBits.toNat ++
    if header.isProgPow prim then
      littleEndian 4 header.nHeight.toNat ++ littleEndian 8 header.nNonce64.toNat ++
        littleEndian 32 header.mix_hash.toNat
    else
      littleEndian 4 header.nNonce.toNat

def getProgPowHeader : CProgPowHeader where
  nVersion := header.nVersion
  hashPrevBlock := header.hashPrevBlock
  hashMerkleRoot := header.hashMerkleRoot
  nTime := header.nTime
  nBits := header.nBits
  nHeight := header.nHeight
  nNonce64 := header.nNonce64
  mix_hash := header.mix_hash

def getProgPowHashFull : Uint256 × Uint256 :=
  progpow_hash_full prim header.getProgPowHeader

def getProgPowHashLight : Uint256 :=
  progpow_hash_light prim header.getProgPowHeader

def getPoWHash (nHeight : Int) : Uint256 :=
  if nHeight = 0 then
    prim.hashX11 (header.serialize prim)
  else if header.isProgPow prim then
    progpow_hash_light prim header.getProgPowHeader
  else
    prim.hashX11 (header.serialize prim)

def getHash : Uint256 :=
  if header.isProgPow prim then
    progpow_hash_light prim header.getProgPowHeader
  else
    prim.hashX11 (header.serialize prim)

/-! ### What is sent of a header -/

/-- The header as it is read back from its bytes: what its layout does not have is null. -/
def onWire : CBlockHeader :=
  if header.isProgPow prim then { header with nNonce := 0 }
  else { header with nHeight := 0, nNonce64 := 0, mix_hash := 0 }

variable {prim}

theorem isProgPow_onWire (header : CBlockHeader) :
    (header.onWire prim).isProgPow prim = header.isProgPow prim := by
  unfold onWire
  split <;> rfl

theorem serialize_onWire : (header.onWire prim).serialize prim = header.serialize prim := by
  have layout := @isProgPow_onWire prim header
  unfold serialize
  rw [layout]
  unfold onWire
  split <;> rfl

theorem getHash_onWire : (header.onWire prim).getHash prim = header.getHash prim := by
  unfold getHash
  rw [isProgPow_onWire, serialize_onWire]
  split
  · next progPow =>
    unfold onWire
    rw [if_pos progPow]
    rfl
  · rfl

theorem getPoWHash_onWire (nHeight : Int) :
    (header.onWire prim).getPoWHash prim nHeight = header.getPoWHash prim nHeight := by
  unfold getPoWHash
  rw [isProgPow_onWire, serialize_onWire]
  split
  · rfl
  split
  · next progPow =>
    unfold onWire
    rw [if_pos progPow]
    rfl
  · rfl

/-! ### Reading headers -/

/-- `CBlockHeader::SerializationOp` on reading.  The time that was read chooses the layout, and what
it lacks stays as it was. -/
def unserialize (prim : HashPrimitives) (old : CBlockHeader) : Reader CBlockHeader := do
  let nVersion <- readWord 32 4
  let hashPrevBlock <- readWord 256 32
  let hashMerkleRoot <- readWord 256 32
  let nTime <- readWord 32 4
  let nBits <- readWord 32 4
  let filled := { old with nVersion, hashPrevBlock, hashMerkleRoot, nTime, nBits }
  if filled.isProgPow prim then
    let nHeight <- readWord 32 4
    let nNonce64 <- readWord 64 8
    let mix_hash <- readWord 256 32
    pure { filled with nHeight, nNonce64, mix_hash }
  else
    let nNonce <- readWord 32 4
    pure { filled with nNonce }

theorem reads_serialize (old header : CBlockHeader) : ∃ read,
    Reads (unserialize prim old) (header.serialize prim) read /\ read.onWire prim = header.onWire prim := by
  have word {width count : Nat} (value : BitVec width) (fits : width <= 8 * count) :=
    reads_readWord value fits
  unfold serialize
  simp only [List.append_assoc]
  split
  · next progPow =>
    refine ⟨{ header with nNonce := old.nNonce }, ?_, ?_⟩
    · refine (word _ (by decide)).bind ((word _ (by decide)).bind ((word _ (by decide)).bind
        ((word _ (by decide)).bind ((word _ (by decide)).bind ?_))))
      change Reads (if header.isProgPow prim then _ else _) _ _
      rw [if_pos progPow]
      exact (word _ (by decide)).bind ((word _ (by decide)).bind ((word _ (by decide)).last rfl))
    · exact (if_pos progPow).trans (if_pos progPow).symm
  · next plain =>
    refine ⟨{ header with nHeight := old.nHeight, nNonce64 := old.nNonce64, mix_hash := old.mix_hash }, ?_, ?_⟩
    · refine (word _ (by decide)).bind ((word _ (by decide)).bind ((word _ (by decide)).bind
        ((word _ (by decide)).bind ((word _ (by decide)).bind ?_))))
      change Reads (if header.isProgPow prim then _ else _) _ _
      rw [if_neg plain]
      exact (word _ (by decide)).last rfl
    · exact (if_neg plain).trans (if_neg plain).symm

/-- A header is read from nothing but its serialization. -/
theorem serialize_of_read {old header : CBlockHeader} {bytes rest : List UInt8}
    (read : (unserialize prim old).run bytes = some (header, rest)) :
    bytes = header.serialize prim ++ rest := by
  have word := canonical_readWord 32 4 rfl
  have hash := canonical_readWord 256 32 rfl
  rcases word.run_bind read with ⟨_, _, rfl, _, read⟩
  rcases hash.run_bind read with ⟨_, _, rfl, _, read⟩
  rcases hash.run_bind read with ⟨_, _, rfl, _, read⟩
  rcases word.run_bind read with ⟨_, _, rfl, _, read⟩
  rcases word.run_bind read with ⟨_, _, rfl, _, read⟩
  dsimp only at read
  split at read
  · next progPow =>
    rcases word.run_bind read with ⟨_, _, rfl, _, read⟩
    rcases (canonical_readWord 64 8 rfl).run_bind read with ⟨_, _, rfl, _, read⟩
    rcases hash.run_bind read with ⟨_, _, rfl, _, read⟩
    rcases run_pure_eq_some read with ⟨rfl, rfl⟩
    unfold serialize
    split
    · simp
    · next plain => exact absurd progPow plain
  · next plain =>
    rcases word.run_bind read with ⟨_, _, rfl, _, read⟩
    rcases run_pure_eq_some read with ⟨rfl, rfl⟩
    unfold serialize
    split
    · next progPow => exact absurd progPow plain
    · simp

/-- Headers are read back in all that is written of them, and each from one byte string only.  What
the layout of a header leaves out is not compared. -/
theorem header_codec (prim : HashPrimitives) : (∀ old header : CBlockHeader, ∃ read,
      Reads (unserialize prim old) (header.serialize prim) read /\ read.onWire prim = header.onWire prim) /\
    (∀ old header bytes rest, (unserialize prim old).run bytes = some (header, rest) ->
      bytes = header.serialize prim ++ rest) /\
    ∀ old other header second bytes secondBytes rest secondRest,
      (unserialize prim old).run (bytes ++ rest) = some (header, rest) ->
      (unserialize prim other).run (secondBytes ++ secondRest) = some (second, secondRest) ->
      header.onWire prim = second.onWire prim -> bytes = secondBytes := by
  refine ⟨reads_serialize, fun _ _ _ _ => serialize_of_read, ?_⟩
  intro old other header second bytes secondBytes rest secondRest read secondRead same
  have first := List.append_cancel_right (serialize_of_read read)
  rw [first, List.append_cancel_right (serialize_of_read secondRead),
    <- serialize_onWire header, same, serialize_onWire second]

end CBlockHeader

/-- `CBlock`.  The memory-only flag `fChecked`, which lets `CheckBlock` skip what it
has already checked on the same object, is left out. -/
structure CBlock where
  header : CBlockHeader
  vtx : List CTransaction
  deriving DecidableEq

/-- `CBlock::GetHash`, inherited from the header. -/
def CBlock.getHash (prim : HashPrimitives) (block : CBlock) : Uint256 :=
  block.header.getHash prim

end StakeCubeCoin.Primitives
