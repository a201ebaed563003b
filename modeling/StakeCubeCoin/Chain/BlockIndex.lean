import StakeCubeCoin.Library.Forest
import StakeCubeCoin.Library.Store
import StakeCubeCoin.Primitives.Block

namespace StakeCubeCoin.Chain

open Primitives Library Library.Forest Option

/-!
# The block index

`CBlockIndex` of `chain.h`, kept by hash as in `m_block_index`; a pointer to an entry
is the hash it is kept under.  `GetAncestor` follows the previous entries; the pointers
that let it skip some of them are left out.
-/

/-- `nStatus`: the level of validity that was reached, and one field for each flag. -/
structure BlockStatus where
  validity : Nat := 0
  haveData : Bool := false
  haveUndo : Bool := false
  failedValid : Bool := false
  failedChild : Bool := false
  conflictChainlock : Bool := false
  deriving DecidableEq

def BLOCK_VALID_TREE : Nat := 2
def BLOCK_VALID_TRANSACTIONS : Nat := 3
def BLOCK_VALID_SCRIPTS : Nat := 5

variable (status : BlockStatus)

/-- `nStatus & BLOCK_FAILED_MASK`. -/
def BlockStatus.failed : Bool :=
  status.failedValid || status.failedChild

/-- `nStatus &= ~BLOCK_FAILED_MASK`. -/
def BlockStatus.clearFailed : BlockStatus :=
  { status with failedValid := false, failedChild := false }

/-- `CBlockIndex::RaiseValidity`, on the status alone. -/
def BlockStatus.raiseValidity (nUpTo : Nat) : BlockStatus :=
  if status.failed then status
  else if status.validity < nUpTo then { status with validity := nUpTo }
  else status

structure CBlockIndex where
  pprev : Option Uint256 := none
  nHeight : Nat := 0
  nFile : Nat := 0
  nDataPos : Nat := 0
  nUndoPos : Nat := 0
  nChainWork : Nat := 0
  nTx : Nat := 0
  nChainTx : Nat := 0
  nStatus : BlockStatus := {}
  nVersion : BitVec 32 := 0
  hashMerkleRoot : Uint256 := 0
  nTime : BitVec 32 := 0
  nBits : BitVec 32 := 0
  nNonce : BitVec 32 := 0
  nNonce64 : BitVec 64 := 0
  mix_hash : Uint256 := 0
  nSequenceId : Int := 0
  nTimeMax : BitVec 32 := 0
  deriving DecidableEq

namespace CBlockIndex

variable (prim : HashPrimitives)

/-- The constructor from a header.  The height of a header in the ProgPoW layout is copied. -/
def ofHeader (block : CBlockHeader) : CBlockIndex where
  nVersion := block.nVersion
  hashMerkleRoot := block.hashMerkleRoot
  nTime := block.nTime
  nBits := block.nBits
  nNonce := block.nNonce
  nHeight := if block.isProgPow prim then block.nHeight.toNat else 0
  nNonce64 := if block.isProgPow prim then block.nNonce64 else 0
  mix_hash := if block.isProgPow prim then block.mix_hash else 0

variable (entry : CBlockIndex)

/-- `CBlockIndex::GetBlockHeader`.  The height of the ProgPoW layout is that of the entry. -/
def getBlockHeader : CBlockHeader :=
  let block : CBlockHeader :=
    { nVersion := entry.nVersion, hashPrevBlock := entry.pprev.getD 0,
      hashMerkleRoot := entry.hashMerkleRoot, nTime := entry.nTime, nBits := entry.nBits }
  if block.isProgPow prim then
    { block with
      nHeight := BitVec.ofNat 32 entry.nHeight, nNonce64 := entry.nNonce64, mix_hash := entry.mix_hash }
  else
    { block with nNonce := entry.nNonce }

def getBlockPoWHash : Uint256 :=
  (entry.getBlockHeader prim).getPoWHash prim entry.nHeight

def haveTxsDownloaded : Bool :=
  decide (entry.nChainTx ≠ 0)

def isValid (nUpTo : Nat := BLOCK_VALID_TRANSACTIONS) : Bool :=
  !entry.nStatus.failed && decide (nUpTo <= entry.nStatus.validity)

end CBlockIndex

abbrev BlockMap := Store Uint256 CBlockIndex

namespace BlockMap

variable (map : BlockMap) (hash : Uint256)

def parent : Option Uint256 :=
  (map hash).bind CBlockIndex.pprev

def height : Nat :=
  ((map hash).map CBlockIndex.nHeight).getD 0

/-- The entry of a hash, or a null entry if there is none. -/
def entry : CBlockIndex :=
  (map hash).getD {}

def mapStatus (change : Uint256 -> BlockStatus -> BlockStatus) : BlockMap :=
  fun hash => (map hash).map fun entry => { entry with nStatus := change hash entry.nStatus }

def modify (change : CBlockIndex -> CBlockIndex) : BlockMap :=
  fun other => if other = hash then (map other).map change else map other

/-- `GetNHeight`: the height of a block after the given one, or zero if that is not known. -/
def getNHeight (hashPrevBlock : Uint256) : Int :=
  ((map hashPrevBlock).map fun prev => (prev.nHeight : Int) + 1).getD 0

def getAncestor (nHeight : Nat) : Option Uint256 :=
  if map.height hash < nHeight then none
  else ancestor map.parent (map.height hash - nHeight) hash

/-- Every previous entry is there, and heights count the entries before.  Walks along `pprev`
therefore end, after as many steps as the height says. -/
structure Linked : Prop where
  linked : ∀ hash entry prev, map hash = some entry -> entry.pprev = some prev ->
    ∃ above, map prev = some above /\ entry.nHeight = above.nHeight + 1
  rooted : ∀ hash entry, map hash = some entry -> entry.pprev = none -> entry.nHeight = 0

end BlockMap

section

variable (tip : Uint256) {nHeight : Nat}

/-- A chain of blocks with consecutive hashes, up to the given one at the given height. -/
def ladder (nHeight : Nat) : BlockMap :=
  fun hash =>
    if (tip - hash).toNat <= nHeight then
      some { nHeight := nHeight - (tip - hash).toNat
             pprev := if (tip - hash).toNat = nHeight then none else some (hash - 1) }
    else
      none

theorem linked_ladder (small : nHeight < 2 ^ 255) : (ladder tip nHeight).Linked where
  linked := by
    intro hash entry prev found previous
    unfold ladder at found
    split at found
    · next _ =>
      cases found
      split at previous
      · cases previous
      next _ =>
      cases previous
      have further : (tip - (hash - 1)).toNat = (tip - hash).toNat + 1 := by
        bv_omega
      refine ⟨_, if_pos (by omega), ?_⟩
      simp only
      omega
    · cases found
  rooted := by
    intro hash entry found alone
    unfold ladder at found
    split at found
    · cases found
      split at alone
      · next _ =>
        simp only
        omega
      · cases alone
    · cases found

end

section

variable {map : BlockMap}

theorem BlockMap.Linked.graded (linked : map.Linked) : Graded map.parent map.height where
  root := by
    intro hash alone
    unfold BlockMap.height
    cases found : map hash with
    | none => rfl
    | some entry =>
      rw [BlockMap.parent, found] at alone
      exact linked.rooted hash entry found alone
  child := by
    intro hash prev next
    rcases bind_eq_some_iff.mp next with ⟨entry, found, previous⟩
    rcases linked.linked hash entry prev found previous with ⟨_, foundAbove, heights⟩
    rw [BlockMap.height, BlockMap.height, found, foundAbove]
    exact heights

theorem BlockMap.Linked.known_of_ancestor (linked : map.Linked) {steps : Nat} {hash above : Uint256}
    (known : (map hash).isSome = true) (found : ancestor map.parent steps hash = some above) :
    (map above).isSome = true := by
  induction steps generalizing hash with
  | zero =>
    cases found
    exact known
  | succ steps ih =>
    rcases bind_eq_some_iff.mp found with ⟨prev, next, further⟩
    rcases bind_eq_some_iff.mp next with ⟨entry, here, previous⟩
    rcases linked.linked hash entry prev here previous with ⟨_, there, _⟩
    exact ih (by rw [there]; rfl) further

end

def CBlockIndex.unfailed (entry : CBlockIndex) : CBlockIndex :=
  { entry with nStatus := entry.nStatus.clearFailed }

/-- A view of entries that leaves their place in the tree. -/
structure Skeletal (view : CBlockIndex -> CBlockIndex) : Prop where
  pprev : ∀ entry, (view entry).pprev = entry.pprev
  nHeight : ∀ entry, (view entry).nHeight = entry.nHeight

theorem skeletal_unfailed : Skeletal CBlockIndex.unfailed where
  pprev := fun _ => rfl
  nHeight := fun _ => rfl

namespace BlockMap

/-- The two indexes have entries for the same hashes, and these look the same.  The view says which
members of an entry are looked at. -/
def Agree {View : Type} (view : CBlockIndex -> View) (first second : BlockMap) : Prop :=
  ∀ hash, (second hash).map view = (first hash).map view

variable {View : Type} {view : CBlockIndex -> View} {first second third : BlockMap}

theorem Agree.refl (map : BlockMap) : Agree view map map :=
  fun _ => rfl

theorem Agree.symm (agree : Agree view first second) : Agree view second first :=
  fun hash => (agree hash).symm

theorem Agree.trans (lower : Agree view first second) (upper : Agree view second third) :
    Agree view first third :=
  fun hash => (upper hash).trans (lower hash)

theorem Agree.some {hash : Uint256} {entry : CBlockIndex} (agree : Agree view first second)
    (found : first hash = some entry) :
    ∃ other, second hash = Option.some other /\ view other = view entry := by
  have same := agree hash
  rw [found] at same
  exact map_eq_some_iff.mp same

theorem Agree.isSome_eq (agree : Agree view first second) (hash : Uint256) :
    (second hash).isSome = (first hash).isSome := by
  rw [<- isSome_map, agree hash, isSome_map]

theorem agree_mapStatus {map : BlockMap} {change : Uint256 -> BlockStatus -> BlockStatus}
    (kept : ∀ hash entry, view { entry with nStatus := change hash entry.nStatus } = view entry) :
    Agree view map (map.mapStatus change) := by
  intro hash
  unfold mapStatus
  rw [map_map]
  congr 1
  funext entry
  exact kept hash entry

theorem agree_modify {map : BlockMap} {hash : Uint256} {change : CBlockIndex -> CBlockIndex}
    (kept : ∀ entry, view (change entry) = view entry) :
    Agree view map (map.modify hash change) := by
  intro other
  unfold modify
  split
  · rw [map_map]
    congr 1
    funext entry
    exact kept entry
  · rfl

end BlockMap

end StakeCubeCoin.Chain
