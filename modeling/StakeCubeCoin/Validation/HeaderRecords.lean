import StakeCubeCoin.Chain.DiskBlockIndex
import StakeCubeCoin.Validation.HeaderRuns

namespace StakeCubeCoin.Validation

open Primitives Chain Library CDiskBlockIndex ChainState CBlockIndex Function List
open CBlockHeader hiding unserialize
open Nat

/-!
# Headers are kept by the index

The header of an entry is put together again from the fields of the entry, its height among
them, both in memory and after the index has been written and loaded.  A header in the
ProgPoW layout has a height of its own, which accepting the header does not compare with the
height of the entry.  Where they agree nothing is lost.
-/

/-- The entry stands for the header under its hash, and its record can be written and loaded.  The
header of an entry is put together from its members and the entry before it. -/
structure Kept (params : TreeParams) (hash : Uint256) (entry : CBlockIndex)
    (header : CBlockHeader) : Prop where
  sameHeader : entry.getBlockHeader params.env.prim = header.onWire params.env.prim
  sameHash : header.getHash params.env.prim = hash
  work : checkProofOfWork params.powLimit (entry.getBlockPoWHash params.env.prim) entry.nBits = true
  storable : Storable entry
  nonzero : hash ≠ 0

section

variable {params : TreeParams} {hash : Uint256} {entry : CBlockIndex} {header : CBlockHeader}

theorem Kept.of_unfailed {other : CBlockIndex} (kept : Kept params hash entry header)
    (same : other.unfailed = entry.unfailed) : Kept params hash other header := by
  have looks : ∀ {View : Type} (view : CBlockIndex -> View),
      (∀ any, view any.unfailed = view any) -> view other = view entry := by
    intro View view blind
    rw [<- blind other, same, blind]
  have headers := looks (getBlockHeader params.env.prim) fun _ => rfl
  have hashes := looks (getBlockPoWHash params.env.prim) fun _ => rfl
  have bits := looks nBits fun _ => rfl
  refine ⟨headers.trans kept.sameHeader, kept.sameHash, ?_, ?_, kept.nonzero⟩
  · rw [hashes, bits]
    exact kept.work
  have fits : Storable entry.unfailed :=
    ⟨kept.storable.nHeight, kept.storable.nFile, kept.storable.nDataPos, kept.storable.nUndoPos,
      kept.storable.nTx, kept.storable.validity⟩
  rw [<- same] at fits
  exact ⟨fits.nHeight, fits.nFile, fits.nDataPos, fits.nUndoPos, fits.nTx, fits.validity⟩

def HasHeight (prim : HashPrimitives) (block : CBlockHeader) (nHeight : Nat) : Prop :=
  block.isProgPow prim = true -> block.nHeight.toNat = nHeight

variable {prim : HashPrimitives}

theorem getBlockHeader_of_progPow {entry : CBlockIndex}
    (progPow : progPowTime prim entry.nTime = true) :
    entry.getBlockHeader prim =
      { nVersion := entry.nVersion, hashPrevBlock := entry.pprev.getD 0, hashMerkleRoot := entry.hashMerkleRoot
        nTime := entry.nTime, nBits := entry.nBits, nHeight := BitVec.ofNat 32 entry.nHeight
        nNonce64 := entry.nNonce64, mix_hash := entry.mix_hash } :=
  if_pos progPow

theorem getBlockHeader_of_oldLayout {entry : CBlockIndex}
    (oldLayout : ¬ progPowTime prim entry.nTime = true) :
    entry.getBlockHeader prim =
      { nVersion := entry.nVersion, hashPrevBlock := entry.pprev.getD 0, hashMerkleRoot := entry.hashMerkleRoot
        nTime := entry.nTime, nBits := entry.nBits, nNonce := entry.nNonce } :=
  if_neg oldLayout

variable {nStatus : BlockStatus} {block : CBlockHeader} {prev : CBlockIndex}

theorem getBlockHeader_newEntry (hasHeight : HasHeight prim block (prev.nHeight + 1)) :
    (newEntry prim block nStatus (some prev)).getBlockHeader prim = block.onWire prim := by
  unfold onWire
  split
  · next progPow =>
    have height : BitVec.ofNat 32 (prev.nHeight + 1) = block.nHeight := by
      rw [<- hasHeight progPow, BitVec.ofNat_toNat, BitVec.setWidth_eq]
    have nonce : (ofHeader prim block).nNonce64 = block.nNonce64 := if_pos progPow
    have mix : (ofHeader prim block).mix_hash = block.mix_hash := if_pos progPow
    refine (@getBlockHeader_of_progPow prim (newEntry prim block nStatus (some prev)) progPow).trans ?_
    simp only [newEntry, Option.map_some, Option.getD_some, height, nonce, mix]
    rfl
  · next oldLayout =>
    exact @getBlockHeader_of_oldLayout prim (newEntry prim block nStatus (some prev)) oldLayout

theorem work_of_checkBlockHeader {env : CheckEnv}
    (checked : checkBlockHeader env block true = none) :
    env.checkProofOfWork (if block.isProgPow env.prim then block.getProgPowHashLight env.prim
      else env.prim.hashX11 (block.serialize env.prim)) block.nBits = true := by
  have hashes : (if block.isProgPow env.prim then block.getProgPowHashLight env.prim
      else block.getPoWHash env.prim (env.getNHeight block.hashPrevBlock)) =
      if block.isProgPow env.prim then block.getProgPowHashLight env.prim
      else env.prim.hashX11 (block.serialize env.prim) := by
    split
    · rfl
    · next oldLayout =>
      unfold getPoWHash
      rw [if_neg oldLayout, ite_self]
  unfold checkBlockHeader at checked
  dsimp only at checked
  rw [hashes] at checked
  generalize (if block.isProgPow env.prim then block.getProgPowHashLight env.prim
    else env.prim.hashX11 (block.serialize env.prim)) = final_hash at checked ⊢
  split at checked
  · cases checked
  · next passed => simpa using passed

end

section

variable {prim : HashPrimitives} {map : BlockMap}

theorem insertBlockIndex_of_known {hash other : Uint256} {entry : CBlockIndex}
    (known : map other = some entry) : (insertBlockIndex map hash).2 other = some entry := by
  unfold insertBlockIndex
  split
  · exact known
  split
  · exact known
  next absent =>
  dsimp only
  rw [update_of_ne, known]
  intro same
  rw [same, absent] at known
  cases known

theorem insertBlockIndex_pointer {hash : Uint256} :
    (insertBlockIndex map hash).1 = if hash = 0 then none else some hash := by
  unfold insertBlockIndex
  split
  · rfl
  · split <;> rfl

/-- The header survives being written and loaded, whatever was in the entry before. -/
theorem getBlockHeader_loadedEntry (hash : Uint256) (entry pindexNew : CBlockIndex) :
    (loadedEntry prim pindexNew entry.pprev ((ofIndex hash entry).readBack prim)).getBlockHeader prim =
      entry.getBlockHeader prim := by
  by_cases progPow : progPowTime prim entry.nTime = true
  · have record : (ofIndex hash entry).readBack prim = _ := if_pos progPow
    have layout : progPowTime prim
        (loadedEntry prim pindexNew entry.pprev ((ofIndex hash entry).readBack prim)).nTime = true := by
      rw [record]
      exact progPow
    rw [getBlockHeader_of_progPow layout, getBlockHeader_of_progPow progPow]
    have sameTime : progPowTime prim (ofIndex hash entry).nTime = true := progPow
    simp only [loadedEntry, record]
    rw [if_pos sameTime, if_pos sameTime]
    rfl
  · have record : (ofIndex hash entry).readBack prim = _ := if_neg progPow
    have layout : ¬ progPowTime prim
        (loadedEntry prim pindexNew entry.pprev ((ofIndex hash entry).readBack prim)).nTime = true := by
      rw [record]
      exact progPow
    rw [getBlockHeader_of_oldLayout layout, getBlockHeader_of_oldLayout progPow]
    simp only [loadedEntry, record]
    rfl

/-- The value that is written for an entry, by a client of the given version. -/
def recordOf (prim : HashPrimitives) (version : Nat) (map : BlockMap) (hash : Uint256) :
    List UInt8 :=
  (CDiskBlockIndex.ofIndex hash (map.entry hash)).serialize prim version

section

variable (obj : CDiskBlockIndex)

theorem kept_readBack : (obj.readBack prim).hash = obj.hash /\
    (obj.readBack prim).hashPrev = obj.hashPrev /\
    (obj.readBack prim).nHeight = obj.nHeight /\ (obj.readBack prim).nBits = obj.nBits := by
  unfold readBack withNonce
  split <;> exact ⟨rfl, rfl, rfl, rfl⟩

end

theorem loadRecord_of_read {check : Uint256 -> BitVec 32 -> Bool} {map : BlockMap}
    {value rest : List UInt8} {diskindex : CDiskBlockIndex} {hash : Uint256}
    (read : (unserialize prim).run value = some (diskindex, rest))
    (pointer : (insertBlockIndex map (diskindex.getBlockHash prim)).1 = some hash) :
    loadRecord prim check map value =
      let linked := insertBlockIndex (insertBlockIndex map (diskindex.getBlockHash prim)).2 diskindex.hashPrev
      let entry := loadedEntry prim (linked.2.entry hash) linked.1 diskindex
      if check (entry.getBlockPoWHash prim) entry.nBits then some (Function.update linked.2 hash (some entry))
      else none := by
  unfold loadRecord
  rw [read]
  change (insertBlockIndex map (diskindex.getBlockHash prim)).1.bind _ = _
  rw [pointer]
  rfl

theorem loadRecord_recordOf {params : TreeParams} {version : Nat} {map loading : BlockMap}
    {hash : Uint256} {entry : CBlockIndex} {header : CBlockHeader}
    (versionFits : version <= INT_MAX) (found : map hash = some entry)
    (kept : Kept params hash entry header) (nonzero : ∀ prev, entry.pprev = some prev -> prev ≠ 0) :
    ∃ loaded, loadRecord params.env.prim (checkProofOfWork params.powLimit) loading
        (recordOf params.env.prim version map hash) = some loaded /\ (∃ again, loaded hash = some again /\
        again.getBlockHeader params.env.prim = entry.getBlockHeader params.env.prim) /\
      ∀ other known, other ≠ hash -> loading other = some known -> loaded other = some known := by
  have read : (unserialize params.env.prim).run (recordOf params.env.prim version map hash) =
      some ((ofIndex hash entry).readBack params.env.prim, []) := by
    have whole := @CDiskBlockIndex.reads_serialize params.env.prim version (ofIndex hash entry)
      kept.storable versionFits []
    rw [append_nil] at whole
    rw [recordOf, BlockMap.entry, found]
    exact whole
  have sameHash :
    ((ofIndex hash entry).readBack params.env.prim).getBlockHash params.env.prim = hash := by
    rw [getBlockHash, (kept_readBack _).1]
    exact if_pos kept.nonzero
  have pointer : ∀ {index : BlockMap}, (insertBlockIndex index hash).1 = some hash := by
    intro index
    rw [insertBlockIndex_pointer, if_neg kept.nonzero]
  have previous : ∀ {index : BlockMap}, (insertBlockIndex index
      ((ofIndex hash entry).readBack params.env.prim).hashPrev).1 = entry.pprev := by
    intro index
    rw [(kept_readBack _).2.1, insertBlockIndex_pointer]
    change (if entry.pprev.getD 0 = 0 then none else some (entry.pprev.getD 0)) = _
    cases previous : entry.pprev with
    | none => rfl
    | some prev => exact if_neg (nonzero prev previous)
  -- The entry that is loaded is checked with the hash that the entry had.
  have header := fun pindexNew => @getBlockHeader_loadedEntry params.env.prim hash entry pindexNew
  have work : ∀ pindexNew, checkProofOfWork params.powLimit
      ((loadedEntry params.env.prim pindexNew entry.pprev
        ((ofIndex hash entry).readBack params.env.prim)).getBlockPoWHash params.env.prim)
      (loadedEntry params.env.prim pindexNew entry.pprev
        ((ofIndex hash entry).readBack params.env.prim)).nBits = true := by
    intro pindexNew
    have sameHeight : (loadedEntry params.env.prim pindexNew entry.pprev
        ((ofIndex hash entry).readBack params.env.prim)).nHeight = entry.nHeight :=
      (kept_readBack _).2.2.1
    have sameBits : (loadedEntry params.env.prim pindexNew entry.pprev
        ((ofIndex hash entry).readBack params.env.prim)).nBits = entry.nBits :=
      (kept_readBack _).2.2.2
    rw [getBlockPoWHash, header, sameHeight, sameBits]
    exact kept.work
  have loads := @loadRecord_of_read params.env.prim (checkProofOfWork params.powLimit) loading
    _ _ _ hash read (by rw [sameHash]; exact pointer)
  dsimp only at loads
  rw [previous, if_pos (work _)] at loads
  refine ⟨_, loads, ⟨_, update_self _ _ _, header _⟩, ?_⟩
  intro other known different before
  rw [update_of_ne different]
  exact insertBlockIndex_of_known (insertBlockIndex_of_known before)

end

/-- The tree, and the header that each entry was made for.  The headers are not stored anywhere;
they say what the entries are compared with. -/
structure HeaderRun where
  tree : ChainState
  headers : Uint256 -> Option CBlockHeader

/-- One call.  The header is noted if there is a new entry. -/
def recordStep (params : TreeParams) (run : HeaderRun) (event : HeaderEvent) : HeaderRun where
  tree := headerStep params run.tree event
  headers := fun hash =>
    if (run.tree.m_block_index hash).isNone && ((headerStep params run.tree event).m_block_index hash).isSome then
      some event.block
    else run.headers hash

/-- The genesis block, which is never checked.  It has enough work and the old layout, and its hash
is not the null hash. -/
structure Genesis (params : TreeParams) where
  header : CBlockHeader
  isGenesis : header.getHash params.env.prim = params.env.hashGenesisBlock
  first : header.hashPrevBlock = 0
  oldLayout : header.isProgPow params.env.prim = false
  mined : checkProofOfWork params.powLimit (header.getHash params.env.prim) header.nBits = true
  nonzero : header.getHash params.env.prim ≠ 0

def Genesis.run {params : TreeParams} (genesis : Genesis params) : HeaderRun where
  tree := ChainState.addToBlockIndex params.env.prim genesis.header { validity := BLOCK_VALID_TREE }
    { m_block_index := fun _ => none, hashes := [], setBlockIndexCandidates := []
      tip := genesis.header.getHash params.env.prim, nBlockSequenceId := 0 }
  headers := fun hash =>
    if hash = genesis.header.getHash params.env.prim then some genesis.header else none

/-- A new header after a known block in the ProgPoW layout has the height after that block, within
the range of its type, and a hash that is not null. -/
def Fitting (params : TreeParams) (run : HeaderRun) (event : HeaderEvent) : Prop :=
  run.tree.m_block_index (event.block.getHash params.env.prim) = none ->
    ∀ prev, run.tree.m_block_index event.block.hashPrevBlock = some prev ->
      HasHeight params.env.prim event.block (prev.nHeight + 1) /\ prev.nHeight + 1 <= INT_MAX /\
        event.block.getHash params.env.prim ≠ 0

/-- Every entry stands for the header that it was made for.  This is what calls of
`AcceptBlockHeader` preserve. -/
structure Faithful (params : TreeParams) (run : HeaderRun) : Prop where
  rooted : Rooted params run.tree
  kept : ∀ hash entry, run.tree.m_block_index hash = some entry ->
    ∃ header, run.headers hash = some header /\ Kept params hash entry header

section

variable {params : TreeParams} {run : HeaderRun}

theorem Genesis.index {genesis : Genesis params} : genesis.run.tree.m_block_index =
    Function.update (fun _ => none) (genesis.header.getHash params.env.prim)
      (some (newEntry params.env.prim genesis.header { validity := BLOCK_VALID_TREE } none)) :=
  rfl

variable (genesis : Genesis params)

theorem Genesis.nHeight_eq (nStatus : BlockStatus) :
    (newEntry params.env.prim genesis.header nStatus none).nHeight = 0 := by
  change (ofHeader params.env.prim genesis.header).nHeight = 0
  unfold ofHeader
  rw [genesis.oldLayout]
  rfl

theorem Genesis.kept : Kept params (genesis.header.getHash params.env.prim)
      (newEntry params.env.prim genesis.header { validity := BLOCK_VALID_TREE } none) genesis.header := by
  have oldLayout : ¬ genesis.header.isProgPow params.env.prim = true := by
    rw [genesis.oldLayout]
    simp
  have sameHeader : (newEntry params.env.prim genesis.header { validity := BLOCK_VALID_TREE }
      none).getBlockHeader params.env.prim = genesis.header.onWire params.env.prim := by
    refine (@getBlockHeader_of_oldLayout _ (newEntry params.env.prim genesis.header
      { validity := BLOCK_VALID_TREE } none) oldLayout).trans ?_
    rw [onWire, if_neg oldLayout, genesis.first]
    rfl
  refine ⟨sameHeader, rfl, ?_, ?_, genesis.nonzero⟩
  · rw [getBlockPoWHash, sameHeader, getPoWHash_onWire, genesis.nHeight_eq]
    have mined := genesis.mined
    rw [getHash, if_neg oldLayout] at mined
    exact mined
  · refine ⟨?_, zero_le _, zero_le _, zero_le _, zero_le _, (by decide : 2 < 8)⟩
    rw [genesis.nHeight_eq]
    exact zero_le _

theorem Genesis.faithful : Faithful params genesis.run := by
  have only : ∀ {hash entry}, genesis.run.tree.m_block_index hash = some entry ->
      hash = genesis.header.getHash params.env.prim /\
        entry = newEntry params.env.prim genesis.header { validity := BLOCK_VALID_TREE } none := by
    intro hash entry found
    rw [Genesis.index] at found
    by_cases same : hash = genesis.header.getHash params.env.prim
    · rw [same, update_self] at found
      exact ⟨same, (Option.some.inj found).symm⟩
    · rw [update_of_ne same] at found
      cases found
  refine ⟨⟨⟨?_, ?_⟩, ?_⟩, ?_⟩
  · intro hash entry prev found previous
    rw [(only found).2] at previous
    cases previous
  · intro hash entry found _
    rw [(only found).2]
    exact genesis.nHeight_eq _
  · rw [Genesis.index, <- genesis.isGenesis, update_self]
    rfl
  intro hash entry found
  rcases only found with ⟨sameHash, sameEntry⟩
  subst sameHash
  subst sameEntry
  exact ⟨genesis.header, if_pos rfl, genesis.kept⟩

theorem Faithful.step (faithful : Faithful params run) {event : HeaderEvent}
    (fitting : Fitting params run event) :
    Faithful params (recordStep params run event) := by
  refine ⟨faithful.rooted.step event, ?_⟩
  intro hash entry found
  change (headerStep params run.tree event).m_block_index hash = some entry at found
  rcases @acceptBlockHeader_index params event.around event.block run.tree faithful.rooted with
    agree | ⟨_, prev, unknown, checked, foundPrev, status, updated⟩
  · rcases agree.symm.some found with ⟨before, there, same⟩
    rcases faithful.kept hash before there with ⟨header, noted, kept⟩
    refine ⟨header, ?_, kept.of_unfailed same.symm⟩
    change (if _ then _ else _) = _
    rw [there]
    exact noted
  · have updates : (headerStep params run.tree event).m_block_index = _ := updated
    rw [updates] at found
    by_cases here : hash = event.block.getHash params.env.prim
    · subst here
      rw [update_self] at found
      cases found
      rcases fitting unknown prev foundPrev with ⟨hasHeight, fits, nonzero⟩
      refine ⟨event.block, ?_, getBlockHeader_newEntry hasHeight, rfl, ?_, ?_, nonzero⟩
      · change (if _ then _ else _) = _
        rw [unknown, updates, update_self]
        rfl
      · unfold getBlockPoWHash
        rw [getBlockHeader_newEntry hasHeight, getPoWHash_onWire]
        unfold getPoWHash
        rw [if_neg]
        · exact work_of_checkBlockHeader checked
        · intro zero
          exact absurd (Int.natCast_eq_zero.mp zero) (succ_ne_zero _)
      · refine ⟨fits, zero_le _, zero_le _, zero_le _, zero_le _, ?_⟩
        rcases status with same | same
        · subst same
          exact (by decide : 2 < 8)
        · subst same
          exact (by decide : 2 < 8)
    · rw [update_of_ne here] at found
      rcases faithful.kept hash entry found with ⟨header, noted, kept⟩
      refine ⟨header, ?_, kept⟩
      change (if _ then _ else _) = _
      rw [found]
      exact noted

def LoadedFrom (prim : HashPrimitives) (map loaded : BlockMap) (hashes : List Uint256) : Prop :=
  ∀ hash ∈ hashes, ∃ again, loaded hash = some again /\
    again.getBlockHeader prim = (map.entry hash).getBlockHeader prim

theorem Faithful.loads (faithful : Faithful params run) {version : Nat}
    (versionFits : version <= INT_MAX) {order : List Uint256} {loading : BlockMap}
    {done : List Uint256} :
    (∀ hash ∈ order, (run.tree.m_block_index hash).isSome = true) ->
      LoadedFrom params.env.prim run.tree.m_block_index loading done ->
      ∃ loaded, loadBlockIndexGuts params.env.prim (checkProofOfWork params.powLimit)
          (order.map (recordOf params.env.prim version run.tree.m_block_index)) loading = some loaded /\
        LoadedFrom params.env.prim run.tree.m_block_index loaded (order ++ done) := by
  induction order generalizing loading done with
  | nil =>
    intro _ loadedSoFar
    exact ⟨loading, rfl, loadedSoFar⟩
  | cons hash _ ih =>
    intro known loadedSoFar
    rcases Option.isSome_iff_exists.mp (known hash (.head _)) with ⟨entry, found⟩
    rcases faithful.kept hash entry found with ⟨header, _, kept⟩
    have nonzero : ∀ prev, entry.pprev = some prev -> prev ≠ 0 := by
      intro prev previous
      rcases faithful.rooted.linked.linked hash entry prev found previous with ⟨above, foundAbove, _⟩
      rcases faithful.kept prev above foundAbove with ⟨_, _, keptAbove⟩
      exact keptAbove.nonzero
    rcases @loadRecord_recordOf params version _ loading hash entry header versionFits found kept nonzero with
      ⟨next, loads, ⟨again, foundAgain, sameHeader⟩, others⟩
    have loadedNext : LoadedFrom params.env.prim run.tree.m_block_index next (hash :: done) := by
      intro other member
      by_cases same : other = hash
      · subst same
        refine ⟨again, foundAgain, ?_⟩
        rw [sameHeader, BlockMap.entry, found]
        rfl
      · rcases loadedSoFar other ((mem_cons.mp member).resolve_left same) with ⟨before, there, looks⟩
        exact ⟨before, others other before same there, looks⟩
    rcases ih (forall_mem_cons.mp known).2 loadedNext with
      ⟨loaded, loadsRest, loadedAll⟩
    refine ⟨loaded, ?_, ?_⟩
    · rw [map_cons, loadBlockIndexGuts, foldlM_cons, loads]
      exact loadsRest
    intro other member
    apply loadedAll other
    rcases mem_append.mp member with inOrder | inDone
    · rcases mem_cons.mp inOrder with same | later
      · rw [same]
        exact mem_append_right _ (.head _)
      · exact mem_append_left _ later
    · exact mem_append_right _ (.tail _ inDone)

end

/-- If new headers in the ProgPoW layout have the height after their parent, every entry gives the
bytes of its header, with its hash and enough work, and an index that is written and loaded, in any
order, has the same headers. -/
theorem headers_kept_of_run (params : TreeParams) (genesis : Genesis params)
    (events : List HeaderEvent)
    (every : EveryStep (recordStep params) (Fitting params) genesis.run events) (version : Nat)
    (versionFits : version <= INT_MAX) (order : List Uint256) (complete : ∀ hash, hash ∈ order <->
      ((events.foldl (recordStep params) genesis.run).tree.m_block_index hash).isSome = true) :
    (∀ hash entry, (events.foldl (recordStep params) genesis.run).tree.m_block_index hash = some entry ->
      (∃ header, (events.foldl (recordStep params) genesis.run).headers hash = some header /\
        (entry.getBlockHeader params.env.prim).serialize params.env.prim = header.serialize params.env.prim) /\
      (entry.getBlockHeader params.env.prim).getHash params.env.prim = hash /\
      checkProofOfWork params.powLimit (entry.getBlockPoWHash params.env.prim) entry.nBits = true) /\
    ∃ loaded, loadBlockIndexGuts params.env.prim (checkProofOfWork params.powLimit)
        (order.map (recordOf params.env.prim version
          (events.foldl (recordStep params) genesis.run).tree.m_block_index)) (fun _ => none) = some loaded /\
      ∀ hash entry, (events.foldl (recordStep params) genesis.run).tree.m_block_index hash =
        some entry -> ∃ again, loaded hash = some again /\
          again.getBlockHeader params.env.prim = entry.getBlockHeader params.env.prim := by
  have faithful :=
      @EveryStep.last _ _ _ (Faithful params) (Fitting params) (fun _ _ before fitting => before.step fitting) _
      events genesis.faithful every
  generalize events.foldl (recordStep params) genesis.run = run at faithful complete ⊢
  constructor
  · intro hash entry found
    rcases faithful.kept hash entry found with ⟨header, noted, kept⟩
    refine ⟨⟨header, noted, ?_⟩, ?_, kept.work⟩
    · rw [kept.sameHeader, serialize_onWire]
    · rw [kept.sameHeader, getHash_onWire]
      exact kept.sameHash
  · rcases @Faithful.loads params run faithful version versionFits order (fun _ => none) []
      (fun hash member => (complete hash).mp member) (nofun) with
      ⟨loaded, loads, loadedAll⟩
    refine ⟨loaded, loads, ?_⟩
    intro hash entry found
    have listed := (complete hash).mpr (by rw [found]; rfl)
    rcases loadedAll hash (mem_append_left _ listed) with ⟨again, foundAgain, looks⟩
    refine ⟨again, foundAgain, ?_⟩
    rw [looks, BlockMap.entry, found]
    rfl

namespace RecordSample

/-- A header in the old layout hashes to its nonce, one in the ProgPoW layout to what its height
lacks of a hundred. -/
def params : TreeParams :=
  { FailedSample.params with
    env := { NodeEnv.permissive 0 false false with
      hashGenesisBlock := 5
      prim :=
        { hashX11 := fun bytes => BitVec.ofNat 256 (Library.ofLittleEndian (bytes.drop 76))
          hash256 := fun bytes => BitVec.ofNat 256 (Library.ofLittleEndian (bytes.drop 76))
          progpowHash := fun _ _ _ => (0, 0)
          hashSeed := fun hash _ => hash
          hashFinal := fun seed _ => 100 - seed
          nPPSwitchTime := 0 } } }

def genesis : Genesis params where
  header := { nVersion := 1, hashPrevBlock := 0, hashMerkleRoot := 0, nTime := 1, nBits := 0x03000063, nNonce := 5 }
  isGenesis := by decide +kernel
  first := rfl
  oldLayout := by decide +kernel
  mined := by decide +kernel
  nonzero := by decide +kernel

def event (nHeight nBits : BitVec 32) : HeaderEvent where
  around := { nAdjustedTime := 1601898627, hasConflictingChainLock := fun _ _ => false }
  block := { nVersion := 1, hashPrevBlock := 5, hashMerkleRoot := 0, nTime := 1601898627, nBits,
             nHeight }

theorem known_after (hash : Uint256) : hash ∈ [(5 : Uint256), 99] <->
    ((recordStep params genesis.run (event 1 0x03000063)).tree.m_block_index hash).isSome = true := by
  have hashes : (event 1 0x03000063).block.getHash params.env.prim = 99 := by decide +kernel
  have added :
    ((headerStep params genesis.run.tree (event 1 0x03000063)).m_block_index 99).isSome = true := by
    decide +kernel
  change _ <-> ((headerStep params genesis.run.tree (event 1 0x03000063)).m_block_index hash).isSome = true
  rcases @acceptBlockHeader_index params (event 1 0x03000063).around (event 1 0x03000063).block
    genesis.run.tree genesis.faithful.rooted with agree | ⟨_, _, _, _, _, _, updated⟩
  · have before := (agree.isSome_eq 99).symm.trans added
    exact absurd before (by decide +kernel)
  have updates : (headerStep params genesis.run.tree (event 1 0x03000063)).m_block_index = _ :=
    updated
  rw [updates, hashes, Genesis.index]
  have first : genesis.header.getHash params.env.prim = 5 := by decide +kernel
  rw [first]
  simp only [mem_cons, not_mem_nil, or_false]
  by_cases isNew : hash = 99
  · subst isNew
    simp
  rw [update_of_ne isNew]
  by_cases isFirst : hash = 5
  · subst isFirst
    simp
  rw [update_of_ne isFirst]
  constructor
  · rintro (same | same)
    · exact absurd same isFirst
    · exact absurd same isNew
  · intro nothing
    cases nothing

end RecordSample

open RecordSample

theorem headers_kept_after_one_header :
    (event 1 0x03000063).block.isProgPow params.env.prim = true /\
      (([event 1 0x03000063].foldl (recordStep params) genesis.run).tree.m_block_index 99).isSome =
      true /\ ∃ loaded, loadBlockIndexGuts params.env.prim (checkProofOfWork params.powLimit)
          ([5, 99].map (recordOf params.env.prim 1
            ([event 1 0x03000063].foldl (recordStep params) genesis.run).tree.m_block_index)) (fun _ => none) =
          some loaded /\ ∀ hash entry,
          ([event 1 0x03000063].foldl (recordStep params) genesis.run).tree.m_block_index hash =
          some entry -> ∃ again, loaded hash = some again /\
            again.getBlockHeader params.env.prim = entry.getBlockHeader params.env.prim := by
  have fitting : Fitting params genesis.run (event 1 0x03000063) := by
    intro _ prev found
    have first : prev = genesis.run.tree.m_block_index.entry 5 := by
      exact (congrArg (fun known => known.getD {}) found).symm
    subst first
    exact ⟨fun _ => by decide +kernel, by decide +kernel, by decide +kernel⟩
  have kept := headers_kept_of_run params genesis [event 1 0x03000063] ⟨fitting, trivial⟩ 1
    (by decide) [5, 99] known_after
  exact ⟨by decide +kernel, by decide +kernel, kept.2⟩

/-- A header whose height is not that of its entry is accepted.  The entry has another hash than the
one it is kept under, and its record is not loaded. -/
theorem height_of_header_is_lost :
    (acceptBlockHeader params (event 98 0x03000005).around (event 98 0x03000005).block genesis.run.tree).1 = none /\
      ((recordStep params genesis.run (event 98 0x03000005)).tree.m_block_index 2).isSome = true /\
      (((recordStep params genesis.run (event 98 0x03000005)).tree.m_block_index.entry 2).getBlockHeader
        params.env.prim).getHash params.env.prim = 99 /\
      (loadBlockIndexGuts params.env.prim (checkProofOfWork params.powLimit)
        ([5, 2].map (recordOf params.env.prim 1
          (recordStep params genesis.run (event 98 0x03000005)).tree.m_block_index)) (fun _ => none)).isNone = true := by
  decide +kernel

end StakeCubeCoin.Validation
