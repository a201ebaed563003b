import StakeCubeCoin.Validation.ReplayBlocks

namespace StakeCubeCoin.Validation

open Primitives Coins Chain Evo Library Library.Action CCoinsViewCache List Action Option Alike

/-!
# What recovery recovers

Applying the blocks again is a batch of coin operations, and a batch does not notice that
it has been performed on some keys already.  So the coins come out right.  But the blocks
are not only applied: their special transactions are checked again, on coins that are
neither of the old nor of the new tip.  Recovery succeeds exactly if these checks do.
-/

/-! ## Special transactions see the coins and the masternode database -/

/-- Two states, over two bases, with the same coins and the same masternode database.  The flags of
the caches may differ, since the coins are cached over different bases. -/
structure SameCoins (base other : CCoinsView) (state there : NodeState) : Prop where
  coins : state.view.coins (liveCoins base) = there.view.coins (liveCoins other)
  evoDb : state.evoDb = there.evoDb

section

variable {base other : CCoinsView} (env : NodeEnv)

theorem SameCoins.getCoin {state there : NodeState} (same : SameCoins base other state there) :
    state.getCoin base = there.getCoin other := by
  funext outpoint
  rw [NodeState.getCoin, NodeState.getCoin, getCoin_fst, getCoin_fst, same.coins]

variable (vtx : List CTransaction) (pindex : BlockPosition)

end

theorem liveCoins_of_unspent {coins : UtxoSet}
    (unspent : ∀ outpoint coin, coins outpoint = some coin -> coin.isSpent = false) :
    liveCoins coins = coins := by
  funext outpoint
  unfold liveCoins
  cases found : coins outpoint with
  | none => rfl
  | some coin => exact Coin.live_of_unspent (unspent outpoint coin found)

section

variable {base : CCoinsView} {known : List COutPoint}
variable {disk : CBlockTreeDB × Store Uint256 CBlockUndo} {tx : CTransaction} {nHeight : Nat}

variable (base known disk) in
/-- The action succeeds on any coins, and all it does is to write a batch to them.  Doing it again
then changes nothing, which is why half-written coins can be repaired. -/
def Writes (action : NodeAction Unit) (ops : List (BatchOp COutPoint Coin)) : Prop :=
  ∀ coins state, Represents base known disk coins state ->
    ∃ last, action.run state = (.ok (), last) /\
    Represents base known disk (writeBatch coins ops) last /\ last.evoDb = state.evoDb

theorem Writes.bind {action next : NodeAction Unit} {ops more : List (BatchOp COutPoint Coin)}
    (first : Writes base known disk action ops) (second : Writes base known disk next more) :
    Writes base known disk (action >>= fun _ => next) (ops ++ more) := by
  intro coins state represents
  rcases first coins state represents with ⟨middle, run, middleRepresents, middleEvoDb⟩
  rcases second _ middle middleRepresents with ⟨last, rest, lastRepresents, lastEvoDb⟩
  rw [run_bind_of_ok run, writeBatch_append]
  exact ⟨last, rest, lastRepresents, lastEvoDb.trans middleEvoDb⟩

theorem Writes.forEach {ι : Type} {body : ι -> NodeAction Unit}
    {ops : ι -> List (BatchOp COutPoint Coin)} (items : List ι)
    (round : ∀ item ∈ items, Writes base known disk (body item) (ops item)) :
    Writes base known disk (forEach body items) (items.flatMap ops) := by
  induction items with
  | nil => exact fun _ state represents => ⟨state, rfl, represents, rfl⟩
  | cons item _ ih => exact (round item (.head _)).bind (ih (forall_mem_cons.mp round).2)

end

section

variable {env : ReplayEnv} {base : CCoinsView}
variable {disk : CBlockTreeDB × Store Uint256 CBlockUndo} {state : NodeState} {coins : UtxoSet}

end

section

variable {env : ReplayEnv}

def tipHeight (env : ReplayEnv) (db : CCoinsViewDB) : Nat :=
  if db.getBestBlock.isNull then 0 else env.tree.map.height db.getBestBlock

/-- A cache that is to be flushed: the database holds the coins of its tip, the cache the changes
along a path from there to the new tip, and these blocks are known and on disk. -/
structure FlushedChain (env : ReplayEnv) (db : CCoinsViewDB) (cache : CCoinsViewCache)
    (path : List (BlockPosition × CBlock)) : Prop where
  settled : db.headBlocks = none
  unspent : ∀ outpoint coin, db.coins outpoint = some coin -> coin.isSpent = false
  newTip : cache.hashBlock.isNull = false
  known : (env.tree.map cache.hashBlock).isSome = true
  descends : db.getBestBlock.isNull = false -> (env.tree.map db.getBestBlock).isSome = true /\
    env.tree.map.getAncestor cache.hashBlock (env.tree.map.height db.getBestBlock) = some db.getBestBlock
  path_eq : path.map Prod.fst = (replayHeights env (tipHeight env db) cache.hashBlock).filterMap
    (replayedAt env cache.hashBlock)
  stored : ∀ item ∈ path, env.readBlockFromDisk item.1 = some item.2
  valid : cache.Valid db.coins
  connected : BlocksConnected path db.coins (cache.coins db.coins)

def flushBatches (env : ReplayEnv) (db : CCoinsViewDB) (cache : CCoinsViewCache) :
    List (List CoinsDbOp) :=
  CCoinsViewDB.batchLoop env.full cache.hashBlock (env.order.visit cache.cacheCoins)
    (CCoinsViewDB.markOps cache.hashBlock db.getBestBlock)

namespace FlushedChain

variable {db : CCoinsViewDB} {cache : CCoinsViewCache} {path : List (BlockPosition × CBlock)}

variable (chain : FlushedChain env db cache path)

include chain

end FlushedChain

end

/-! ## A masternode whose collateral is spent in the next block -/

namespace RecoverySample

def collateral : COutPoint :=
  ⟨7, 0⟩

def payToPublicKeyHash : CScript :=
  [0x76, 0xa9, 0x14] ++ List.replicate 20 1 ++ [0x88, 0xac]

/-- The collateral of a masternode, and a coin to pay for its registration. -/
def coins : UtxoSet :=
  fun outpoint =>
    if outpoint = collateral then
      some { out := ⟨1000 * COIN, payToPublicKeyHash⟩, fCoinBase := false, nHeight := 1 }
    else if outpoint = ⟨8, 0⟩ then
      some { out := ⟨100, payToPublicKeyHash⟩, fCoinBase := false, nHeight := 1 }
    else
      none

/-- The check of `CheckProRegTx` for a collateral that is not part of the transaction. -/
def checkCollateral (tx : CTransaction) (getCoin : CCoinsView) : Inquiry :=
  if tx.nType = .providerRegister then
    { reads := [collateral]
      failure :=
        if ((getCoin collateral).map fun coin => decide (coin.out.nValue = 1000 * COIN)).getD false
        then none
        else some (.dos 10 "bad-protx-collateral") }
  else
    {}

def node : NodeEnv :=
  { NodeEnv.permissive 0 false false with
    checkSpecialTxByType := fun tx _ _ getCoin _ => checkCollateral tx getCoin }

def coinbase (hash : Uint256) : CTransaction :=
  { vin := [{ prevout := ⟨0, COutPoint.NULL_INDEX⟩, scriptSig := [1, 2] }]
    vout := [⟨50, payToPublicKeyHash⟩]
    hash := hash }

def registration : CTransaction :=
  { vin := [{ prevout := ⟨8, 0⟩ }]
    vout := [⟨90, payToPublicKeyHash⟩]
    nVersion := 3, nType := .providerRegister, hash := 21 }

def spend : CTransaction :=
  { vin := [{ prevout := collateral }]
    vout := [⟨1000 * COIN, payToPublicKeyHash⟩]
    hash := 31 }

def header (hashPrevBlock : Uint256) (nNonce : BitVec 32) : CBlockHeader :=
  { nVersion := 1, hashPrevBlock, hashMerkleRoot := 0, nTime := 0, nBits := 0,
    nNonce }

/-- Registers the masternode. -/
def first : CBlock :=
  { header := header 5 6, vtx := [coinbase 20, registration] }

/-- Spends its collateral. -/
def second : CBlock :=
  { header := header 6 7, vtx := [coinbase 30, spend] }

def tree : BlockTree where
  map := ladder 7 3
  linked := linked_ladder 7 (by decide)

/-- Every entry of the cache is written in a batch of its own. -/
def env : ReplayEnv where
  node := node
  tree := tree
  readBlockFromDisk := fun pindex =>
    if pindex.hash = 6 then some first else if pindex.hash = 7 then some second else none
  order := IterationOrder.stored
  full := fun batch => !batch.isEmpty

def firstPosition : BlockPosition :=
  tree.positionOf 6 { pprev := some 5, nHeight := 2 } rfl

def secondPosition : BlockPosition :=
  tree.positionOf 7 { pprev := some 6, nHeight := 3 } rfl

def db : CCoinsViewDB :=
  { coins, bestBlock := some 5, headBlocks := none }

def evoDb : CEvoDB :=
  { db := fun key => if key = .bestBlock then some (.hash 5) else none }

def start : NodeState :=
  { freshState evoDb with view := CCoinsViewCache.new.setBestBlock 5 }

def middle : NodeState :=
  ((connectBlock node coins 5 first firstPosition false).run start).2

def last : NodeState :=
  ((connectBlock node coins 5 second secondPosition false).run middle).2

def batches : List (List CoinsDbOp) :=
  flushBatches env db last.view

def path : List (BlockPosition × CBlock) :=
  [(firstPosition, first), (secondPosition, second)]

theorem coins_unspent : ∀ outpoint coin, coins outpoint = some coin -> coin.isSpent = false := by
  intro outpoint coin found
  unfold coins at found
  split at found
  · cases found
    rfl
  split at found
  · cases found
    rfl
  · cases found

theorem connected_first : ∃ undo,
    (connectBlock node coins 5 first firstPosition false).run start = (.ok (some undo), middle) := by
  have value : ((connectBlock node coins 5 first firstPosition false).run start).1 =
      .ok (some { vtxundo := [[coinAt coins ⟨8, 0⟩]] }) := by
    decide +kernel
  exact ⟨_, by rw [<- value, middle]⟩

theorem connected_second : ∃ undo,
    (connectBlock node coins 5 second secondPosition false).run middle = (.ok (some undo), last) := by
  have value : ((connectBlock node coins 5 second secondPosition false).run middle).1 =
      .ok (some { vtxundo := [[coinAt coins collateral]] }) := by
    decide +kernel
  exact ⟨_, by rw [<- value, last]⟩

/-- The two blocks connect, and the view after them is about to be flushed. -/
theorem chain : FlushedChain env db last.view path where
  settled := rfl
  unspent := coins_unspent
  newTip := by decide +kernel
  known := by decide +kernel
  descends := fun _ => ⟨by decide +kernel, by decide +kernel⟩
  path_eq := by
    have tip : last.view.hashBlock = 7 := by
      decide +kernel
    rw [tip]
    rfl
  stored := by
    intro item member
    rcases mem_cons.mp member with now | later
    · rw [now]
      rfl
    · rw [mem_singleton.mp later]
      rfl
  valid := by
    rcases connected_first with ⟨_, firstRun⟩
    rcases connected_second with ⟨_, secondRun⟩
    have firstValid := (blocksConnected_of_connectBlock (valid_new _) firstRun).1
    have secondValid := (blocksConnected_of_connectBlock firstValid secondRun).1
    rw [liveCoins_of_unspent coins_unspent] at secondValid
    exact secondValid
  connected := by
    rcases connected_first with ⟨_, firstRun⟩
    rcases connected_second with ⟨_, secondRun⟩
    rcases blocksConnected_of_connectBlock (valid_new _) firstRun with
      ⟨firstValid, firstConnected⟩
    have secondConnected := (blocksConnected_of_connectBlock firstValid secondRun).2
    have both := firstConnected.append secondConnected
    rw [liveCoins_of_unspent coins_unspent] at both
    exact both

end RecoverySample

end StakeCubeCoin.Validation
