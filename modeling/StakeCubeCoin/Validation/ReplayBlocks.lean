import StakeCubeCoin.Chain.BlockIndex
import StakeCubeCoin.Coins.Database
import StakeCubeCoin.Validation.UndoCoins

namespace StakeCubeCoin.Validation

open Primitives Coins Chain Evo Library

/-!
# Recovering from an interrupted flush

`CChainState::RollforwardBlock` and `CChainState::ReplayBlocks` of `validation.cpp`.
A flush of the coins that did not get to its last batch leaves a database in which some
coins are of the old tip and some of the new one.  The blocks in between are applied to
it once more, whatever has been applied already, and the result is flushed.
-/

/-- The block index of a node that has loaded it.  Entries are linked to entries that are there,
with heights that go up by one. -/
structure BlockTree where
  map : BlockMap
  linked : map.Linked

/-- What the block code reads of an entry. -/
def BlockTree.positionOf (tree : BlockTree) (hash : Uint256) (entry : CBlockIndex)
    (found : tree.map hash = some entry) : BlockPosition where
  hash := hash
  nHeight := entry.nHeight
  nTime := entry.nTime
  pprev := entry.pprev.map fun prev => { hash := prev, nHeight := tree.map.height prev }
  height_eq := by
    intro prev same
    rcases Option.map_eq_some_iff.mp same with ⟨above, previous, rfl⟩
    rcases tree.linked.linked hash entry above found previous with ⟨entryAbove, foundAbove, heights⟩
    rw [heights, BlockMap.height, foundAbove]
    rfl

def BlockTree.position (tree : BlockTree) (hash : Uint256) : Option BlockPosition :=
  match found : tree.map hash with
  | none => none
  | some entry => some (tree.positionOf hash entry found)

/-- What recovery works on: the block index, the block files, and the unspecified details
of a flush. -/
structure ReplayEnv where
  node : NodeEnv
  tree : BlockTree
  readBlockFromDisk : BlockPosition -> Option CBlock
  order : IterationOrder
  full : List CoinsDbOp -> Bool

section

variable (env : ReplayEnv) (base : CCoinsView)

def replayedAt (pindexNew : Uint256) (nHeight : Nat) : Option BlockPosition :=
  (env.tree.map.getAncestor pindexNew nHeight).bind env.tree.position

def replayHeights (nForkHeight : Nat) (pindexNew : Uint256) : List Nat :=
  List.range' (nForkHeight + 1) (env.tree.map.height pindexNew - nForkHeight)

def freshState (evoDb : CEvoDB) : NodeState where
  view := CCoinsViewCache.new
  evoDb := evoDb
  blocktree :=
    { addressIndex := fun _ => none
      addressUnspentIndex := fun _ => none
      spentIndex := fun _ => none
      timestampIndex := fun _ => none }
  undo := fun _ => none

end

/-! ## Blocks as batches of coins -/

/-- What a transaction does to the set of coins, as a batch. -/
def txOps (nHeight : Nat) (tx : CTransaction) : List (BatchOp COutPoint Coin) :=
  (inputs tx).map .erase ++ outputOps tx nHeight

def pathOps (path : List (BlockPosition × CBlock)) : List (BatchOp COutPoint Coin) :=
  path.flatMap fun item => item.2.vtx.flatMap (txOps item.1.nHeight)

/-- The blocks of a path take the coins from one set to another.  Their transactions are checked
ones and are connected in turn. -/
inductive BlocksConnected : List (BlockPosition × CBlock) -> UtxoSet -> UtxoSet -> Prop
  | nil (coins : UtxoSet) : BlocksConnected [] coins coins
  | cons {pindex : BlockPosition} {block : CBlock} {rest : List (BlockPosition × CBlock)}
    {txs : List (CTransaction × CTxUndo)} {before middle after : UtxoSet} :
    (∀ tx ∈ block.vtx, TransactionOk tx) -> txs.map Prod.fst = block.vtx ->
    TxsConnected pindex.nHeight txs before middle -> BlocksConnected rest middle after ->
    BlocksConnected ((pindex, block) :: rest) before after

theorem connectCoins_eq (nHeight : Nat) (tx : CTransaction) (coins : UtxoSet) :
    connectCoins tx nHeight coins = writeBatch coins (txOps nHeight tx) := by
  rw [txOps, writeBatch_append]
  rfl

theorem TxsConnected.after_eq {nHeight : Nat} {txs : List (CTransaction × CTxUndo)}
    {before after : UtxoSet} (connected : TxsConnected nHeight txs before after) :
    after = writeBatch before ((txs.map Prod.fst).flatMap (txOps nHeight)) := by
  induction connected with
  | nil _ => rfl
  | cons first _ ih =>
    rw [ih, first.after_eq, connectCoins_eq, List.map_cons, List.flatMap_cons, writeBatch_append]

theorem TxsConnected.held {nHeight : Nat} {txs : List (CTransaction × CTxUndo)}
    {coins after : UtxoSet} (connected : TxsConnected nHeight txs coins after)
    {earlier later : List CTransaction} {tx : CTransaction}
    (place : txs.map Prod.fst = earlier ++ tx :: later) {outpoint : COutPoint}
    (spends : outpoint ∈ inputs tx) :
    (writeBatch coins (earlier.flatMap (txOps nHeight)) outpoint).isSome = true := by
  induction connected generalizing earlier with
  | nil _ => simp at place
  | cons first _ ih =>
    cases earlier with
    | nil =>
      cases place
      exact first.held outpoint spends
    | cons _ _ =>
      injection place with same place
      cases same
      have held := ih place
      rwa [first.after_eq, connectCoins_eq, <- writeBatch_append] at held

namespace BlocksConnected

variable {path : List (BlockPosition × CBlock)} {before after : UtxoSet}

variable (connected : BlocksConnected path before after)

include connected

theorem after_eq : after = writeBatch before (pathOps path) := by
  induction connected with
  | nil _ => rfl
  | cons _ txs_eq txs _ ih =>
    rw [ih, txs.after_eq, txs_eq, pathOps, pathOps, List.flatMap_cons, writeBatch_append]

theorem append {rest : List (BlockPosition × CBlock)} {last : UtxoSet}
    (more : BlocksConnected rest after last) :
    BlocksConnected (path ++ rest) before last := by
  induction connected with
  | nil _ => exact more
  | cons ok txs_eq txs _ ih =>
    exact .cons ok txs_eq txs (ih more)

end BlocksConnected

section

variable {env : NodeEnv} {base : CCoinsView} {baseBestBlock : Uint256} {block : CBlock}
  {pindex : BlockPosition} {blockundo : CBlockUndo} {before after : NodeState}
  (valid : before.view.Valid (liveCoins base))
  (finished : (connectBlock env base baseBestBlock block pindex false).run before =
    (.ok (some blockundo), after))

include valid finished

/-- A call of `ConnectBlock` that returns undo data takes the coins of the view along one
more block. -/
theorem blocksConnected_of_connectBlock : after.view.Valid (liveCoins base) /\
      BlocksConnected [(pindex, block)] (before.view.coins (liveCoins base))
        (after.view.coins (liveCoins base)) := by
  rcases connectBlock_ok valid rfl finished with ⟨_, _, final, done⟩
  rcases done.checked with ⟨_, _, ok⟩
  refine ⟨done.represents.valid, ?_⟩
  rw [done.represents.coins_eq]
  exact .cons ok.transactions done.txs_eq done.connected (.nil final)

/-- No coin is spent twice along a chain.  The last operation before a spend that concerns its
output made the output, or there is none and the output was there at the beginning.  The view is
valid again, with the chain that is longer by the block, so this goes on along the chain. -/
theorem connectBlock_spends_once {past : List (BlockPosition × CBlock)} {start : UtxoSet}
    (chain : BlocksConnected past start (before.view.coins (liveCoins base))) :
    after.view.Valid (liveCoins base) /\
      BlocksConnected (past ++ [(pindex, block)]) start (after.view.coins (liveCoins base)) /\
      ∀ earlier tx later, block.vtx = earlier ++ tx :: later -> (inputs tx).Nodup /\ ∀ outpoint ∈ inputs tx,
        let last := lastOp (pathOps past ++ earlier.flatMap (txOps pindex.nHeight)) outpoint
        (∃ coin, last = some (some coin)) \/ last = none /\ (start outpoint).isSome = true := by
  rcases blocksConnected_of_connectBlock valid finished with ⟨validAfter, connected⟩
  refine ⟨validAfter, chain.append connected, ?_⟩
  intro earlier tx later place
  rcases connectBlock_ok valid rfl finished with ⟨_, _, _, done⟩
  rcases done.checked with ⟨_, _, ok⟩
  constructor
  · unfold inputs
    split
    · exact .nil
    · exact (ok.transactions tx (place ▸ List.mem_append_right _ (.head _))).distinct
  intro outpoint spends
  have held := done.connected.held (done.txs_eq.trans place) spends
  rw [chain.after_eq, <- writeBatch_append, writeBatch_eq_lastOp] at held
  generalize lastOp (pathOps past ++ earlier.flatMap (txOps pindex.nHeight)) outpoint = last at held
  cases last with
  | none => exact .inr ⟨rfl, held⟩
  | some _ =>
    rcases Option.isSome_iff_exists.mp held with ⟨coin, rfl⟩
    exact .inl ⟨coin, rfl⟩

end

namespace UndoSample

/-- A block on top, with a transaction that spends an output of the block below. -/
def top : CBlock :=
  { header := { (block []).header with hashPrevBlock := 6, nNonce := 7 }
    vtx := [{ coinbase with hash := 30 }, second] }

def topIndex : BlockPosition :=
  { hash := 7, nHeight := 3, nTime := 0, pprev := some { hash := 6, nHeight := 2 }
    height_eq := by
      intro prev same
      cases same
      rfl }

def topRun : Except Failure (Option CBlockUndo) × NodeState :=
  (connectBlock (NodeEnv.permissive 10 false false) base 0 top topIndex false).run
    (after [coinbase, first])

end UndoSample

open UndoSample in
theorem second_spends_first : ∃ coin, lastOp (pathOps [(pindex, block [coinbase, first])] ++
      [{ coinbase with hash := 30 }].flatMap (txOps 3)) ⟨21, 0⟩ = some (some coin) := by
  have below :
    ((connectBlock (NodeEnv.permissive 10 false false) base 0 (block [coinbase, first]) pindex
      false).run before).1 = .ok (some { vtxundo := undo.vtxundo.take 1 }) := by
    decide +kernel
  have value : topRun.1 = .ok (some { vtxundo := undo.vtxundo.drop 1 }) := by
    decide +kernel
  rcases blocksConnected_of_connectBlock view_ok.valid
    (show _ = (_, after [coinbase, first]) by rw [<- below, after]) with ⟨valid, past⟩
  have once :=
    (connectBlock_spends_once valid (show topRun = (_, topRun.2) by rw [<- value]) past).2.2
  exact ((once [{ coinbase with hash := 30 }] second [] rfl).2 ⟨21, 0⟩ (.head _)).resolve_right
    fun untouched => absurd untouched.1 (by decide +kernel)

end StakeCubeCoin.Validation
