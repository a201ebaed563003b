import StakeCubeCoin.Primitives.Pow
import StakeCubeCoin.Validation.ConnectBlock
import StakeCubeCoin.Validation.ContextualChecks

namespace StakeCubeCoin.Validation

open Primitives Coins Chain Evo Library Library.Action CBlockHeader CCoinsViewCache List Bool Nat

/-!
# The mix hash of accepted blocks

A block is accepted by `CheckBlockHeader`, `ContextualCheckBlockHeader`,
`ContextualCheckBlock` and `ConnectBlock`.  The first and the last compute the light hash,
which takes the mix from the header; none computes the mix.  So the mix of an accepted
block is the one that ProgPoW computes only if no other mix gives a light hash that meets
the target.
-/

/-- What a block is accepted in: the parameters, the block index with the entry before the
block, the time, and the coins and databases. -/
structure AcceptContext where
  env : NodeEnv
  params : ContextParams
  map : BlockMap
  pindexPrev : Uint256
  nAdjustedTime : Int
  base : CCoinsView
  baseBestBlock : Uint256
  state : NodeState

/-- The block passes all checks on the way to the tip, at the given position: those of its header,
the contextual ones, and those made when it is connected. -/
structure Accepted (context : AcceptContext) (block : CBlock) (pindex : BlockPosition) : Prop where
  linked : context.map.Linked
  prev_known : (context.map context.pindexPrev).isSome = true
  heights : context.env.getNHeight = context.map.getNHeight
  prev_hash : block.header.hashPrevBlock = context.pindexPrev
  position : pindex.pprev =
    some { hash := context.pindexPrev, nHeight := context.map.height context.pindexPrev }
  header : checkBlockHeader context.env.toCheckEnv block.header true = none
  contextualHeader : contextualCheckBlockHeader context.params context.map context.pindexPrev
    block.header context.nAdjustedTime = none
  contextual : contextualCheckBlock context.env context.params context.map
    (some context.pindexPrev) block = none
  connected : ∃ undo, ∃ after,
    (connectBlock context.env context.base context.baseBestBlock block pindex false).run
      context.state = (.ok undo, after)

section

variable {context : AcceptContext} {block : CBlock} {pindex : BlockPosition}

theorem Accepted.nHeight_eq (accepted : Accepted context block pindex)
    (progPow : block.header.isProgPow context.env.prim = true) :
    block.header.nHeight.toNat = context.map.height context.pindexPrev + 1 := by
  have checked := accepted.contextual
  simp only [contextualCheckBlock] at checked
  split at checked
  · cases checked
  split at checked
  · cases checked
  · next matching => simpa [progPow] using matching

theorem Accepted.nHeight_lt (accepted : Accepted context block pindex)
    (progPow : block.header.isProgPow context.env.prim = true) :
    block.header.nHeight.toNat < ETHASH_EPOCH_LENGTH * 2000 := by
  rcases accepted.connected with ⟨_, _, finished⟩
  rcases run_bind_ok_iff.mp finished with ⟨_, _, preamble, _⟩
  simp only [connectPreamble, run_bind_ok_iff, run_require_ok_iff] at preamble
  rcases preamble with ⟨_, _, _, _, _, _, _, _, _, _, _, ⟨allowed, _⟩, _⟩
  simpa [progPow] using allowed

end

/-! ## Any mix that meets the target is accepted -/

namespace Forged

variable (tip : Uint256) (nHeight : Nat)

theorem ladder_tip : ∃ pprev, ladder tip nHeight tip = some { nHeight, pprev } := by
  have zero : (tip - tip).toNat = 0 := by
    rw [BitVec.sub_self]
    rfl
  unfold ladder
  rw [zero]
  exact ⟨_, rfl⟩

theorem height_ladder : (ladder tip nHeight).height tip = nHeight := by
  rcases ladder_tip tip nHeight with ⟨_, found⟩
  rw [BlockMap.height, found]
  rfl

theorem lastTimes_ladder (count : Nat) (hash : Option Uint256) :
    ∀ time ∈ lastTimes (ladder tip nHeight) count hash, time = 0 := by
  induction count generalizing hash with
  | zero =>
    intro time member
    cases member
  | succ count ih =>
    intro time member
    cases hash with
    | none => cases member
    | some hash =>
      unfold lastTimes at member
      cases found : ladder tip nHeight hash with
      | none =>
        rw [found] at member
        cases member
      | some entry =>
        rw [found] at member
        rcases mem_cons.mp member with now | later
        · rw [now]
          unfold ladder at found
          split at found
          · cases found
            rfl
          · cases found
        · exact ih entry.pprev time later

theorem getMedianTimePast_ladder (hash : Uint256) :
    getMedianTimePast (ladder tip nHeight) hash = 0 := by
  unfold getMedianTimePast
  rw [getD_eq_getElem?_getD]
  cases found : ((lastTimes (ladder tip nHeight) nMedianTimeSpan (some hash)).insertionSort
      (fun a b => a <= b))[((lastTimes (ladder tip nHeight) nMedianTimeSpan
        (some hash)).insertionSort (fun a b => a <= b)).length / 2]? with
  | none => rfl
  | some time =>
    have member := mem_of_getElem? found
    rw [(perm_insertionSort _ _).mem_iff] at member
    exact lastTimes_ladder tip nHeight nMedianTimeSpan (some hash) time member

def coinbase : CTransaction :=
  { vin := [{ prevout := ⟨0, COutPoint.NULL_INDEX⟩, scriptSig := [1, 2] }]
    vout := [⟨50, [0x51]⟩]
    hash := 20 }

def block (header : CBlockHeader) : CBlock :=
  { header, vtx := [coinbase] }

variable (prim : HashPrimitives) (meets : Uint256 -> BitVec 32 -> Bool)
variable (header : CBlockHeader)

/-- The hash primitives and the check of the target are as given; nothing else stands
against the header. -/
def env : NodeEnv :=
  { NodeEnv.permissive (header.nHeight.toNat + 1) false false with
    prim := prim
    checkProofOfWork := meets
    getNHeight := (ladder header.hashPrevBlock (header.nHeight.toNat - 1)).getNHeight
    hashGenesisBlock := header.getProgPowHashLight prim + 1
    blockMerkleRoot := fun _ => (header.hashMerkleRoot, false) }

def params : ContextParams where
  fMain := false
  getNextWorkRequired := fun _ _ block => block.nBits
  farApart := fun _ _ => false
  fCheckpointsEnabled := false
  checkpoints := []
  BIP34Height := header.nHeight.toNat + 1
  BIP65Height := header.nHeight.toNat + 1
  BIP66Height := header.nHeight.toNat + 1
  csvActive := fun _ _ => false

def state : NodeState where
  view := CCoinsViewCache.new.setBestBlock header.hashPrevBlock
  evoDb := { db := fun _ => none }
  blocktree :=
    { addressIndex := fun _ => none, addressUnspentIndex := fun _ => none
      spentIndex := fun _ => none, timestampIndex := fun _ => none }
  undo := fun _ => none

def context : AcceptContext where
  env := env prim meets header
  params := params header
  map := ladder header.hashPrevBlock (header.nHeight.toNat - 1)
  pindexPrev := header.hashPrevBlock
  nAdjustedTime := getBlockTime header
  base := fun _ => none
  baseBestBlock := header.hashPrevBlock
  state := state header

variable {header}

def position (positive : 0 < header.nHeight.toNat) : BlockPosition where
  hash := header.getProgPowHashLight prim
  nHeight := header.nHeight.toNat
  nTime := header.nTime
  pprev := some { hash := header.hashPrevBlock, nHeight := header.nHeight.toNat - 1 }
  height_eq := by
    intro prev same
    cases same
    simp only
    omega

variable {prim} {meets}
variable (progPow : header.isProgPow prim = true)
variable (passes : meets (header.getProgPowHashLight prim) header.nBits = true)

include progPow

theorem getHash_eq : header.getHash prim = header.getProgPowHashLight prim := by
  rw [getHash, if_pos progPow]
  rfl

include passes in
theorem checkBlockHeader_eq :
    checkBlockHeader (env prim meets header).toCheckEnv header true = none := by
  have light : (if header.isProgPow prim then header.getProgPowHashLight prim else
      header.getPoWHash prim ((env prim meets header).getNHeight header.hashPrevBlock)) =
        header.getProgPowHashLight prim := if_pos progPow
  simp only [checkBlockHeader]
  rw [show (env prim meets header).prim = prim from rfl, light]
  rw [show (env prim meets header).checkProofOfWork = meets from rfl, passes]
  rfl

theorem length_serialize : (header.serialize prim).length = 120 := by
  simp only [serialize, progPow, if_true, length_append, length_littleEndian]

theorem blockSize_le : blockSize (env prim meets header).toCheckEnv (block header) = 120 := by
  have length := length_serialize progPow
  change (header.serialize prim).length + 0 = 120
  rw [length]

include passes in
theorem checkBlock_eq :
    checkBlock (env prim meets header).toCheckEnv (block header) true true = none := by
  have merkle : checkMerkleRoot (env prim meets header).toCheckEnv (block header) = none := by
    simp [checkMerkleRoot, env, block]
  have transactions : checkBlockTransactions (env prim meets header).toCheckEnv
      (block header) = none := by
    unfold checkBlockTransactions
    rw [blockSize_le progPow]
    rfl
  have started : checkBlockHeader (env prim meets header).toCheckEnv (block header).header true =
      none := checkBlockHeader_eq progPow passes
  unfold checkBlock
  rw [started, if_pos rfl, merkle]
  exact transactions

theorem getBlockTime_pos : 0 < getBlockTime header := by
  have later : SCC_GEN_TIME < header.nTime := by
    have both := progPow
    simp only [isProgPow, and_eq_true, decide_eq_true_eq] at both
    exact both.1
  have positive := lt_of_le_of_lt (zero_le _) later
  unfold getBlockTime
  omega

theorem contextualCheckBlock_eq (positive : 0 < header.nHeight.toNat) :
    contextualCheckBlock (env prim meets header) (params header)
      (ladder header.hashPrevBlock (header.nHeight.toNat - 1)) (some header.hashPrevBlock)
      (block header) = none := by
  have switched : prim.nPPSwitchTime <= header.nTime := by
    have both := progPow
    simp only [isProgPow, and_eq_true, decide_eq_true_eq] at both
    exact both.2
  have height : header.nHeight.toNat - 1 + 1 = header.nHeight.toNat := by
    omega
  have inactive : ¬(header.nHeight.toNat + 1 <= header.nHeight.toNat) := by
    omega
  unfold contextualCheckBlock
  simp only [Option.map_some, Option.getD_some, height_ladder, height, Option.bind_some]
  rcases ladder_tip header.hashPrevBlock (header.nHeight.toNat - 1) with ⟨_, found⟩
  rw [found, blockSize_le progPow]
  have notBack := BitVec.not_lt.mpr switched
  have transactions : ∀ cutoff, contextualCheckTransactions (env prim meets header)
      header.nHeight.toNat cutoff [coinbase] = none := by
    intro cutoff
    have final : isFinalTx coinbase header.nHeight.toNat cutoff = true := rfl
    have only : contextualCheckTransaction (env prim meets header)
        header.nHeight.toNat coinbase = none := by
      simp [contextualCheckTransaction, env, NodeEnv.permissive, inactive]
    simp [contextualCheckTransactions, only, final]
  split
  · next back => simp [env, block, notBack] at back
  split
  · next mismatch => simp [env, block] at mismatch
  split
  · next large =>
    have sizes : 120 <= maxBlockSize (decide ((env prim meets header).DIP0001Height <=
        header.nHeight.toNat)) := by
      unfold maxBlockSize
      split <;> decide
    rcases (or_eq_true _ _).mp large with short | long
    · rcases (or_eq_true _ _).mp short with empty | many
      · cases empty
      · have counted : maxBlockSize _ < 1 := of_decide_eq_true many
        omega
    · have sized := of_decide_eq_true long
      omega
  split
  · next _ rejected =>
    exact absurd ((transactions _).symm.trans rejected) (by simp)
  split
  · next many => simp [block, env, NodeEnv.permissive] at many
  split
  · next active => exact absurd active.1 inactive
  split
  · next active => exact absurd active.1 inactive
  · rfl

/-! ### Connecting it -/

variable (positive : 0 < header.nHeight.toNat)

include passes in
theorem connectPreamble_run (epoch : header.nHeight.toNat < ETHASH_EPOCH_LENGTH * 2000) :
    (connectPreamble (env prim meets header) header.hashPrevBlock (block header)
      (position prim positive) false).run (state header) = (.ok (), state header) := by
  have hash := getHash_eq progPow
  have best : (getBestBlock header.hashPrevBlock).run (state header) =
      (.ok header.hashPrevBlock, state header) := by
    change ((Except.ok ((new.setBestBlock header.hashPrevBlock).getBestBlock
          header.hashPrevBlock).1 : Except Failure Uint256),
      { state header with view := ((new.setBestBlock
        header.hashPrevBlock).getBestBlock header.hashPrevBlock).2 }) = _
    unfold CCoinsViewCache.getBestBlock
    split <;> rfl
  have again : (checkBlockAgain (env prim meets header) (block header) false).run
      (state header) = (.ok (), state header) := by
    unfold checkBlockAgain
    rw [show (!false) = true from rfl, checkBlock_eq progPow passes]
    rfl
  have hashOk : decide ((position prim positive).hash =
      (block header).getHash (env prim meets header).prim) = true :=
    decide_eq_true hash.symm
  have epochOk : (!((block header).header.isProgPow (env prim meets header).prim &&
      !false && decide (ETHASH_EPOCH_LENGTH * 2000 <= (block header).header.nHeight.toNat))) =
        true := by
    have below : ¬(ETHASH_EPOCH_LENGTH * 2000 <= header.nHeight.toNat) := not_le.mpr epoch
    simp [block, below]
  have inactive : ¬((env prim meets header).DIP0003Height <= (position prim positive).nHeight) := by
    change ¬(header.nHeight.toNat + 1 <= header.nHeight.toNat)
    omega
  have unlocked : (!((position prim positive).pprev.isSome &&
      (env prim meets header).hasConflictingChainLock (position prim positive).nHeight
        (position prim positive).hash)) = true := rfl
  have bestOk : decide ((position prim positive).hashPrevBlock = header.hashPrevBlock) = true :=
    decide_eq_true rfl
  unfold connectPreamble
  rw [run_bind_of_ok (run_require_of_true hashOk _ _), run_bind_of_ok again,
    run_bind_of_ok (run_require_of_true unlocked _ _),
    run_bind_of_ok (run_require_of_true epochOk _ _), run_bind_of_ok best,
    run_bind_of_ok (run_require_of_true bestOk _ _), run_bind_of_ok (Action.run_read _ _)]
  exact run_require_of_true (by simp [inactive]) _ _

omit progPow in
theorem processSpecialTxsInBlock_run : ∃ after,
      (processSpecialTxsInBlock (env prim meets header) (fun _ => none) (block header).vtx
        (position prim positive) false true).run (state header) = (.ok (), after) /\
      after.view = (state header).view := by
  have early : (position prim positive).nHeight <
      (env prim meets header).DIP0003Height := lt_succ_self header.nHeight.toNat
  unfold processSpecialTxsInBlock processQuorumBlock processMasternodeBlock
  rw [if_pos early, if_pos early]
  exact ⟨_, rfl, rfl⟩

omit progPow in
theorem connectTransactions_run (prev : PrevPosition) : ∃ progress, ∃ after,
      (connectTransactions (env prim meets header) (fun _ => none) (block header)
        (position prim positive) prev false).run (state header) = (.ok progress, after) := by
  have fresh : (checkBIP30 (fun _ => none) (block header).vtx).run (state header) =
      (.ok (), state header) := rfl
  have started : (!(decide ((position prim positive).nHeight =
        (env prim meets header).nSuperblockStartBlock) &&
      !(env prim meets header).nSuperblockStartHash.isNull &&
      decide ((block header).getHash (env prim meets header).prim ≠
        (env prim meets header).nSuperblockStartHash))) = true := by
    have null : (env prim meets header).nSuperblockStartHash.isNull = true := rfl
    simp [null]
  rcases @processSpecialTxsInBlock_run prim meets header positive with
    ⟨special, specialRun, same⟩
  -- A coinbase is connected to a view without coins.
  rcases special with ⟨_, _, _, _⟩
  cases same
  apply Exists.intro
  apply Exists.intro
  unfold connectTransactions
  rw [run_bind_of_ok fresh, run_bind_of_ok (run_require_of_true started _ _)]
  exact (run_bind_of_ok specialRun).trans rfl

include passes in
/-- A block whose light hash meets the target is accepted, whatever its mix. -/
theorem accepted (epoch : header.nHeight.toNat < ETHASH_EPOCH_LENGTH * 2000) :
    Accepted (context prim meets header) (block header) (position prim positive) where
  linked := linked_ladder header.hashPrevBlock (by
    have bound := header.nHeight.isLt
    have small : 2 ^ 32 < 2 ^ 255 := by decide
    omega)
  prev_known := by
    rcases ladder_tip header.hashPrevBlock (header.nHeight.toNat - 1) with ⟨_, found⟩
    change (ladder header.hashPrevBlock (header.nHeight.toNat - 1) header.hashPrevBlock).isSome = true
    rw [found]
    rfl
  heights := rfl
  prev_hash := rfl
  position := by
    change some _ = some _
    rw [show (context prim meets header).map.height
      (context prim meets header).pindexPrev = header.nHeight.toNat - 1 from
        height_ladder header.hashPrevBlock (header.nHeight.toNat - 1)]
    rfl
  header := checkBlockHeader_eq progPow passes
  contextualHeader := by
    have time := getBlockTime_pos progPow
    have bits : checkBits (params header)
        (ladder header.hashPrevBlock (header.nHeight.toNat - 1)) header.hashPrevBlock header =
          none := by
      simp [checkBits, params]
    have inactive : ¬(header.nHeight.toNat + 1 <= header.nHeight.toNat - 1 + 1) := by
      omega
    change contextualCheckBlockHeader (params header) (ladder header.hashPrevBlock _)
      header.hashPrevBlock header (getBlockTime header) = none
    unfold contextualCheckBlockHeader
    simp only [bits, getMedianTimePast_ladder, height_ladder]
    rw [if_neg (by simp [params]), if_neg (by omega),
      if_neg (by unfold MAX_FUTURE_BLOCK_TIME; omega), if_neg (by simp [params, inactive])]
  contextual := contextualCheckBlock_eq progPow positive
  connected := by
    have notGenesis : ¬((block header).getHash (env prim meets header).prim =
        (env prim meets header).hashGenesisBlock) := by
      change ¬(header.getHash prim = header.getProgPowHashLight prim + 1)
      rw [getHash_eq progPow]
      bv_omega
    rcases @connectTransactions_run prim meets header positive
      { hash := header.hashPrevBlock, nHeight := header.nHeight.toNat - 1 } with ⟨_, after, transactions⟩
    change ∃ undo, ∃ after, (connectBlock (env prim meets header) (fun _ => none) header.hashPrevBlock
      (block header) (position prim positive) false).run (state header) = (.ok undo, after)
    unfold connectBlock
    rw [run_bind_of_ok (connectPreamble_run progPow passes positive epoch), if_neg notGenesis]
    refine ⟨_, _, (run_bind_of_ok transactions).trans rfl⟩

end Forged

/-- For every header: all accepted blocks with it carry the mix that ProgPoW computes if and only if
the header carries that mix, or it fails a check on the way: of its height against zero, of its
epoch, or of the light hash, into which its own mix goes, against the target. -/
theorem accepted_mix_is_full_iff (prim : HashPrimitives)
    (checkProofOfWork : Uint256 -> BitVec 32 -> Bool) (header : CBlockHeader) :
    (∀ context block pindex, context.env.prim = prim ->
      context.env.checkProofOfWork = checkProofOfWork -> block.header = header ->
      header.isProgPow prim = true -> Accepted context block pindex ->
      block.header.mix_hash = (block.header.getProgPowHashFull prim).2) <->
    (header.isProgPow prim = true -> 0 < header.nHeight.toNat ->
      header.nHeight.toNat < ETHASH_EPOCH_LENGTH * 2000 ->
      checkProofOfWork (header.getProgPowHashLight prim) header.nBits = true ->
      header.mix_hash = (header.getProgPowHashFull prim).2) := by
  constructor
  · intro sound progPow positive epoch passes
    exact sound (Forged.context prim checkProofOfWork header) (Forged.block header)
      (Forged.position prim positive) rfl rfl rfl progPow
      (Forged.accepted progPow passes positive epoch)
  · intro unforgeable context block pindex samePrim sameCheck sameHeader progPow accepted
    subst samePrim sameCheck sameHeader
    have height := accepted.nHeight_eq progPow
    have checked := accepted.header
    simp only [checkBlockHeader, progPow, if_true, Bool.true_and] at checked
    split at checked
    · cases checked
    · next passed =>
      exact unforgeable progPow (by omega) (accepted.nHeight_lt progPow) (by simpa using passed)

namespace Forged

/-- Hash functions for which the light hash is the mix in the header, and ProgPoW computes
the mix zero. -/
def samplePrim : HashPrimitives :=
  { (NodeEnv.permissive 0 false false).prim with nPPSwitchTime := 1700000000 }

def sampleHeader : CBlockHeader where
  nVersion := 0x20000000
  hashPrevBlock := 7
  hashMerkleRoot := 9
  nTime := 1700000150
  nBits := 0x1b1774cd
  nHeight := 100000
  nNonce64 := 1
  mix_hash := 5

end Forged

/-- A block is accepted whose mix was made up, with the target of the first ProgPoW block. -/
theorem made_up_mix_is_accepted : ∃ context block, ∃ pindex,
      context.env.checkProofOfWork = checkProofOfWork (2 ^ 236 - 1) /\
      block.header.isProgPow context.env.prim = true /\ Accepted context block pindex /\
      block.header.mix_hash ≠ (block.header.getProgPowHashFull context.env.prim).2 := by
  refine ⟨Forged.context Forged.samplePrim (checkProofOfWork (2 ^ 236 - 1)) Forged.sampleHeader,
    Forged.block Forged.sampleHeader, Forged.position Forged.samplePrim (by decide), rfl,
    by decide +kernel, Forged.accepted (by decide +kernel) (by decide +kernel) (by decide)
      (by decide), by decide +kernel⟩

end StakeCubeCoin.Validation
