import StakeCubeCoin.Chain.BlockIndex
import StakeCubeCoin.Primitives.Pow

namespace StakeCubeCoin.Chain

open Primitives Library.Forest

/-!
# The tree of blocks and the active chain

The part of `BlockManager` and `CChainState` that keeps track of which blocks are known,
which of them failed and which may become the tip.  Entries are pointed to by their hash.
`m_chain` is determined by its tip.  Sets and multimaps are lists; the order of a set is
that of its comparator when it is iterated.  A loop over the whole index whose rounds
change one entry each is written as one change of all entries.  `setDirtyBlockIndex`, which
only says what to write to disk, is left out.
-/

/-- Where the entries are in memory: comparators fall back to comparing pointers. -/
structure Allocation where
  address : Uint256 -> Nat
  injective : Function.Injective address

structure ChainState where
  m_block_index : BlockMap
  /-- The hashes with an entry. -/
  hashes : List Uint256
  m_prev_block_index : List (Uint256 × Uint256) := []
  m_failed_blocks : List Uint256 := []
  m_blocks_unlinked : List (Uint256 × Uint256) := []
  setBlockIndexCandidates : List Uint256
  /-- `m_chain.Tip()`. -/
  tip : Uint256
  pindexBestInvalid : Option Uint256 := none
  pindexBestHeader : Option Uint256 := none
  nBlockSequenceId : Int
  nBlockReverseSequenceId : Int := -1
  nLastPreciousChainwork : Nat := 0

section

variable (allocation : Allocation) (map : BlockMap)

/-- `CBlockIndexWorkComparator`: whether the first block is worse than the second. -/
def blockIndexWorkComparator (pa pb : Uint256) : Bool :=
  if (map.entry pb).nChainWork < (map.entry pa).nChainWork then false
  else if (map.entry pa).nChainWork < (map.entry pb).nChainWork then true
  else if (map.entry pa).nSequenceId < (map.entry pb).nSequenceId then false
  else if (map.entry pb).nSequenceId < (map.entry pa).nSequenceId then true
  else if allocation.address pa < allocation.address pb then false
  else if allocation.address pb < allocation.address pa then true
  else false

/-- The part of the condition for becoming a candidate that looks at the entry alone. -/
def BlockMap.eligible (hash : Uint256) : Bool :=
  (map.entry hash).isValid BLOCK_VALID_TRANSACTIONS &&
    !(map.entry hash).nStatus.conflictChainlock && (map.entry hash).haveTxsDownloaded

end

namespace ChainState

variable (allocation : Allocation)

/-- The loop of `ResetBlockFailureFlags` over all entries: the flags of the block and of
its descendants are removed. -/
def resetDescendants (pindex : Uint256) (state : ChainState) : ChainState :=
  let map := state.m_block_index
  let reset := fun hash => !(map.entry hash).isValid &&
    decide (map.getAncestor hash (map.height pindex) = some pindex)
  let cleared := map.mapStatus fun hash status => if reset hash then status.clearFailed else status
  { state with
    m_block_index := cleared
    setBlockIndexCandidates :=
      (state.hashes.filter fun hash => reset hash && cleared.eligible hash &&
        blockIndexWorkComparator allocation cleared state.tip hash) ∪ state.setBlockIndexCandidates
    pindexBestInvalid := state.pindexBestInvalid.filter fun hash => !reset hash
    m_failed_blocks := state.m_failed_blocks.filter fun hash => !reset hash }

/-- The children of an entry that are marked as descending from a failed block. -/
def failedChildren (map : BlockMap) (m_prev_block_index : List (Uint256 × Uint256))
    (pindex : Uint256) : List Uint256 :=
  ((m_prev_block_index.filter fun item => item.1 == pindex).map Prod.snd).filter fun child =>
    (map.entry child).nStatus.failedChild

/-- One round of the loop of `ResetBlockFailureFlags` over the ancestors.  Children marked as
descending from a failed block become failed themselves. -/
def resetAncestor (state : ChainState) (pindex : Uint256) : ChainState :=
  if (state.m_block_index.entry pindex).nStatus.failed then
    let cleared := state.m_block_index.modify pindex fun entry =>
      { entry with nStatus := entry.nStatus.clearFailed }
    let children := failedChildren cleared state.m_prev_block_index pindex
    let candidates :=
      if cleared.eligible pindex && blockIndexWorkComparator allocation cleared state.tip pindex then
        state.setBlockIndexCandidates.insert pindex
      else
        state.setBlockIndexCandidates
    { state with
      m_block_index := cleared.mapStatus fun hash status =>
        if children.contains hash then { status with failedValid := true } else status
      setBlockIndexCandidates := candidates.filter fun hash => !children.contains hash
      pindexBestInvalid := state.pindexBestInvalid.filter fun hash => hash != pindex
      m_failed_blocks := children ∪ state.m_failed_blocks.filter fun hash => hash != pindex }
  else
    state

/-- `CChainState::ResetBlockFailureFlags` for an entry. -/
def resetFailureFlagsOf (pindex : Uint256) (state : ChainState) : ChainState :=
  (lineage state.m_block_index.parent (state.m_block_index.height pindex + 1) pindex).foldl
    (resetAncestor allocation) (resetDescendants allocation pindex state)

/-- `CChainState::ResetBlockFailureFlags`.  Without an entry, the best invalid block is
taken if it is ahead of the tip. -/
def resetBlockFailureFlags (pindex : Option Uint256) (state : ChainState) : ChainState :=
  match pindex with
  | some pindex => resetFailureFlagsOf allocation pindex state
  | none =>
    match state.pindexBestInvalid with
    | none => state
    | some invalid =>
      if state.m_block_index.getAncestor invalid (state.m_block_index.height state.tip) =
        some state.tip then
        resetFailureFlagsOf allocation invalid state
      else
        state

/-- The entry that `AddToBlockIndex` makes for a header, with the entry before it if there
is one. -/
def newEntry (prim : HashPrimitives) (block : CBlockHeader) (nStatus : BlockStatus)
    (prev : Option CBlockIndex) : CBlockIndex :=
  let pindexNew := CBlockIndex.ofHeader prim block
  { pindexNew with
    nSequenceId := 0
    pprev := prev.map fun _ => block.hashPrevBlock
    nHeight := (prev.map fun entry => entry.nHeight + 1).getD pindexNew.nHeight
    nTimeMax := (prev.map fun entry =>
      if entry.nTimeMax < pindexNew.nTime then pindexNew.nTime else entry.nTimeMax).getD pindexNew.nTime
    nChainWork := (prev.map CBlockIndex.nChainWork).getD 0 + (getBlockProof pindexNew.nBits).toNat
    nStatus :=
      if nStatus.validity ≠ 0 then pindexNew.nStatus.raiseValidity nStatus.validity
      else { nStatus with validity := BLOCK_VALID_TREE } }

def addToBlockIndex (prim : HashPrimitives) (block : CBlockHeader) (nStatus : BlockStatus)
    (state : ChainState) : ChainState :=
  let hash := block.getHash prim
  match state.m_block_index hash with
  | some _ => state
  | none =>
    let prev := state.m_block_index block.hashPrevBlock
    let pindexNew := newEntry prim block nStatus prev
    let better := (state.pindexBestHeader.map fun best =>
      decide ((state.m_block_index.entry best).nChainWork < pindexNew.nChainWork)).getD true
    { state with
      m_block_index := Function.update state.m_block_index hash (some pindexNew)
      hashes := state.hashes ++ [hash]
      m_prev_block_index :=
        if prev.isSome then state.m_prev_block_index ++ [(block.hashPrevBlock, hash)]
        else state.m_prev_block_index
      pindexBestHeader :=
        if nStatus.validity ≠ 0 && better then some hash else state.pindexBestHeader }

end ChainState

variable {state : ChainState} {block : CBlockHeader} {prim : HashPrimitives} {nStatus : BlockStatus}

theorem addToBlockIndex_of_known
    (known : (state.m_block_index (block.getHash prim)).isSome = true) :
    state.addToBlockIndex prim block nStatus = state := by
  unfold ChainState.addToBlockIndex
  rcases Option.isSome_iff_exists.mp known with ⟨_, found⟩
  simp only [found]

theorem index_addToBlockIndex (unknown : state.m_block_index (block.getHash prim) = none) :
    (state.addToBlockIndex prim block nStatus).m_block_index =
      Function.update state.m_block_index (block.getHash prim)
        (some (ChainState.newEntry prim block nStatus (state.m_block_index block.hashPrevBlock))) := by
  unfold ChainState.addToBlockIndex
  simp only [unknown]

end StakeCubeCoin.Chain
