import StakeCubeCoin.Chain.ChainState
import StakeCubeCoin.Validation.ContextualChecks

namespace StakeCubeCoin.Validation

open Primitives Chain Library.Forest

/-!
# Accepting headers

`BlockManager::AcceptBlockHeader`, with its rejecting paths in order.  Some of them write:
a failed header that is sent again is reconsidered, descendants of failed blocks are
marked, and a header that conflicts with a chainlock is stored all the same.
-/

/-- Consensus parameters, code of other files and the placement of entries in memory, which decides
the order of the set of failed blocks. -/
structure TreeParams where
  env : NodeEnv
  context : ContextParams
  powLimit : Uint256
  allocation : Allocation
  nMinimumChainWork : Nat := 0

/-- What a call finds at the time it is made: the adjusted time, and whether the block with a height
and a hash conflicts with a chainlock. -/
structure Surroundings where
  nAdjustedTime : Int
  hasConflictingChainLock : Nat -> Uint256 -> Bool

/-- The parameters for the checks, at the time of a call and for the index as it is. -/
def TreeParams.envAt (params : TreeParams) (around : Surroundings) (map : BlockMap) : NodeEnv :=
  { params.env with
    checkProofOfWork := checkProofOfWork params.powLimit
    getNHeight := map.getNHeight
    hasConflictingChainLock := around.hasConflictingChainLock }

section

variable (params : TreeParams) (around : Surroundings) (block : CBlockHeader)

/-- The first block of `m_failed_blocks`, in the order of the pointers, that the entry descends
from.  It is only looked for if the entry is not validated up to scripts.  The assertion that such a
block has `BLOCK_FAILED_VALID`, which it has when it is inserted there, is left out. -/
def failedAncestor (allocation : Allocation) (state : ChainState) (pindexPrev : Uint256) :
    Option Uint256 :=
  let map := state.m_block_index
  if (map.entry pindexPrev).isValid BLOCK_VALID_SCRIPTS then
    none
  else
    (state.m_failed_blocks.insertionSort fun first second =>
      allocation.address first <= allocation.address second).find? fun failedit =>
        decide (map.getAncestor pindexPrev (map.height failedit) = some failedit)

/-- The loop over `invalid_walk`: the entry and what lies between it and a failed block is
marked as descending from a failed block. -/
def markFailedChild (map : BlockMap) (pindexPrev failedit : Uint256) : BlockMap :=
  let walk := lineage map.parent (map.height pindexPrev - map.height failedit) pindexPrev
  map.mapStatus fun hash status =>
    if walk.contains hash then { status with failedChild := true } else status

/-- `AcceptBlockHeader`, once the previous entry has been found.  Where an ancestor of it has
failed, the entries in between are marked when the header is refused. -/
def acceptOnto (pindexPrev : CBlockIndex) (state : ChainState) : Option Rejection × ChainState :=
  let prim := params.env.prim
  let map := state.m_block_index
  if pindexPrev.nStatus.failed then
    (some (.dos 100 "bad-prevblk"), state)
  else if pindexPrev.nStatus.conflictChainlock then
    (some (.dos 10 "bad-prevblk-chainlock"), state)
  else
    match contextualCheckBlockHeader params.context map block.hashPrevBlock block
      around.nAdjustedTime with
    | some rejection => (some rejection, state)
    | none =>
      match failedAncestor params.allocation state block.hashPrevBlock with
      | some failedit =>
        (some (.dos 100 "bad-prevblk"),
          { state with m_block_index := markFailedChild map block.hashPrevBlock failedit })
      | none =>
        if around.hasConflictingChainLock (pindexPrev.nHeight + 1) (block.getHash prim) then
          (some (.dos 10 "bad-chainlock"),
            state.addToBlockIndex prim block { conflictChainlock := true })
        else
          (none, state.addToBlockIndex prim block { validity := BLOCK_VALID_TREE })

/-- `BlockManager::AcceptBlockHeader`: why the header is rejected, if it is, and the state
afterwards. -/
def acceptBlockHeader (state : ChainState) : Option Rejection × ChainState :=
  let prim := params.env.prim
  let map := state.m_block_index
  let hash := block.getHash prim
  if hash = params.env.hashGenesisBlock then
    (none, state.addToBlockIndex prim block { validity := BLOCK_VALID_TREE })
  else
    match map hash with
    | some pindex =>
      if pindex.nStatus.failed then
        (some (.dos 0 "duplicate"), state.resetBlockFailureFlags params.allocation (some hash))
      else if pindex.nStatus.conflictChainlock then
        (some (.dos 0 "duplicate"), state)
      else
        (none, state)
    | none =>
      match checkBlockHeader (params.envAt around map).toCheckEnv block true with
      | some rejection => (some rejection, state)
      | none =>
        match map block.hashPrevBlock with
        | none => (some (.dos 10 "prev-blk-not-found"), state)
        | some pindexPrev => acceptOnto params around block pindexPrev state

end

/-! ## What a call can do -/

/-- The ways a call can end, with what is known about the header in each.  What every call preserves
is proved by cases on them. -/
inductive HeaderOutcome (params : TreeParams) (around : Surroundings) (block : CBlockHeader)
    (state : ChainState) : Option Rejection -> ChainState -> Prop
  | genesis (isGenesis : block.getHash params.env.prim = params.env.hashGenesisBlock) :
    HeaderOutcome params around block state none
      (state.addToBlockIndex params.env.prim block { validity := BLOCK_VALID_TREE })
  | reconsidered (rejection : Rejection) (entry : CBlockIndex)
    (known : state.m_block_index (block.getHash params.env.prim) = some entry)
    (failed : entry.nStatus.failed = true) :
    HeaderOutcome params around block state (some rejection)
      (state.resetBlockFailureFlags params.allocation (some (block.getHash params.env.prim)))
  | known (entry : CBlockIndex)
    (known : state.m_block_index (block.getHash params.env.prim) = some entry)
    (notFailed : entry.nStatus.failed = false) :
    HeaderOutcome params around block state none state
  | rejected (rejection : Rejection) :
    HeaderOutcome params around block state (some rejection) state
  | descends (rejection : Rejection) (failedit : Uint256)
    (listed : failedAncestor params.allocation state block.hashPrevBlock = some failedit) :
    HeaderOutcome params around block state (some rejection)
      { state with
        m_block_index := markFailedChild state.m_block_index block.hashPrevBlock failedit }
  | added (result : Option Rejection) (nStatus : BlockStatus) (prev : CBlockIndex)
    (notGenesis : block.getHash params.env.prim ≠ params.env.hashGenesisBlock)
    (unknown : state.m_block_index (block.getHash params.env.prim) = none)
    (checked : checkBlockHeader (params.envAt around state.m_block_index).toCheckEnv block true = none)
    (found : state.m_block_index block.hashPrevBlock = some prev)
    (prevNotFailed : prev.nStatus.failed = false)
    (unlisted : failedAncestor params.allocation state block.hashPrevBlock = none)
    (status : nStatus = { validity := BLOCK_VALID_TREE } /\ result = none \/
      nStatus = { conflictChainlock := true } /\ result.isSome = true) :
    HeaderOutcome params around block state result (state.addToBlockIndex params.env.prim block nStatus)

theorem acceptBlockHeader_outcome (params : TreeParams) (around : Surroundings)
    (block : CBlockHeader) (state : ChainState) :
    HeaderOutcome params around block state (acceptBlockHeader params around block state).1
      (acceptBlockHeader params around block state).2 := by
  unfold acceptBlockHeader
  simp only
  split
  · next isGenesis => exact .genesis isGenesis
  next notGenesis =>
  split
  · next entry known =>
    split
    · next failed => exact .reconsidered _ entry known failed
    next notFailed =>
    split
    · exact .rejected _
    · exact .known entry known (Bool.eq_false_iff.mpr notFailed)
  next unknown =>
  split
  · exact .rejected _
  next checked =>
  split
  · exact .rejected _
  next prev found =>
  unfold acceptOnto
  simp only
  split
  · exact .rejected _
  next prevNotFailed =>
  split
  · exact .rejected _
  split
  · exact .rejected _
  split
  · next failedit listed => exact .descends _ failedit listed
  next unlisted =>
  split
  · exact .added _ _ prev notGenesis unknown checked found (Bool.eq_false_iff.mpr prevNotFailed)
      unlisted (.inr ⟨rfl, rfl⟩)
  · exact .added _ _ prev notGenesis unknown checked found (Bool.eq_false_iff.mpr prevNotFailed)
      unlisted (.inl ⟨rfl, rfl⟩)

end StakeCubeCoin.Validation
