import StakeCubeCoin.Validation.UndoIndexes

namespace StakeCubeCoin.Validation

open Primitives Coins Evo Library Library.Action

/-!
# Checking the databases

`CVerifyDB::VerifyDB` of `validation.cpp`.  The last blocks of the active chain are
read back, checked, disconnected and, at the highest level, connected again.  The
coins are changed in a view that is thrown away, and the masternode database in a
transaction that is rolled back; the block tree database is written to as it is.
-/

/-- The active chain, from its tip down to the genesis block. -/
structure ActiveChain where
  blocks : List BlockPosition
  linked : blocks.IsChain fun child parent =>
    child.pprev = some { hash := parent.hash, nHeight := parent.nHeight }
  rooted : ∀ genesis, blocks.getLast? = some genesis -> genesis.pprev = none /\ genesis.nHeight = 0

def ActiveChain.height (chain : ActiveChain) : Int :=
  (chain.blocks.length : Int) - 1

/-- What the check works on: the active chain, the coins under the view, the block files,
and the conditions outside the node that it asks for. -/
structure VerifyEnv where
  node : NodeEnv
  chain : ActiveChain
  /-- `GetCoin` and `GetBestBlock` of `coinsview`. -/
  coinsview : CCoinsView
  bestBlock : Uint256
  readBlockFromDisk : BlockPosition -> Option CBlock
  /-- Whether undo data that is there can be read back. -/
  undoReadable : BlockPosition -> Bool
  fPruneMode : Bool
  haveData : BlockPosition -> Bool
  /-- Whether the memory used by the view leaves room for another block. -/
  cacheFits : CCoinsViewCache -> Bool
  shutdownRequested : BlockPosition -> Bool

/-- What the node keeps between calls.  No transaction of the masternode database is
under way. -/
structure PersistentState where
  evoDb : CEvoDB
  blocktree : CBlockTreeDB
  undo : Store Uint256 CBlockUndo
  idle : evoDb.curDBTransaction = []

inductive VerifyError where
  | readBlockFailed (nHeight : Nat) (hash : Uint256)
  | badBlock (nHeight : Nat) (hash : Uint256) (rejection : Rejection)
  | badUndo (nHeight : Nat) (hash : Uint256)
  | irrecoverable (nHeight : Nat) (hash : Uint256)
  | inconsistencies (blocks : Int) (nGoodTransactions : Nat)
  | unconnectable (nHeight : Nat) (hash : Uint256) (failure : Failure)
  deriving DecidableEq

/-- How the check ends before its last line: with an error, because of a shutdown, or in
a call that did not return. -/
inductive VerifyStop where
  | failed (error : VerifyError)
  | shutdown
  | raised (failure : Failure)
  deriving DecidableEq

abbrev VerifyAction (α : Type) := Action NodeState VerifyStop α

/-- Whether a call with this failure returned to its caller.  One that ended with a failed assertion
or an exception did not. -/
def Failure.returns : Failure -> Bool
  | .reject _ => true
  | .abortNode _ => true
  | .disconnectFailed _ => true
  | .assertion _ => false
  | .thrown _ => false

section

variable (env : VerifyEnv)

variable (pindex : BlockPosition)

variable (nCheckLevel : Nat) (block : CBlock)

variable (nCheckDepth : Int)

/-- What is made of the answer of `ConnectBlock`.  A failure that is returned is one of the check,
and an exception goes through. -/
def connected : Except Failure (Option CBlockUndo) -> VerifyAction Unit
  | .ok _ => pure ()
  | .error failure =>
    if failure.returns then
      .fail (.failed (.unconnectable pindex.nHeight pindex.hash failure))
    else
      .fail (.raised failure)

def VerifyStop.returned : VerifyStop -> Except Failure Bool
  | .failed _ => .ok false
  | .shutdown => .ok true
  | .raised failure => .error failure

def PersistentState.opened (disk : PersistentState) : NodeState where
  view := CCoinsViewCache.new
  evoDb := disk.evoDb
  blocktree := disk.blocktree
  undo := disk.undo

/-- The state at the end of the scope: the view is gone and the transaction is rolled
back. -/
def NodeState.closed (state : NodeState) : PersistentState where
  evoDb := state.evoDb.rollbackCurTransaction
  blocktree := state.blocktree
  undo := state.undo
  idle := rfl

variable {env} {property : NodeState -> Prop} {nCheckLevel : Nat}

end

/-! ## A block that is disconnected -/

namespace VerifySample

open IndexSample

def after : NodeState :=
  ((connectBlock IndexSample.env (base payToPublicKeyHash) 0 block pindex false).run
    (before payToPublicKeyHash)).2

def disk : PersistentState where
  evoDb := after.evoDb.commitCurTransaction
  blocktree := after.blocktree
  undo := after.undo
  idle := rfl

def chain : ActiveChain where
  blocks :=
    [pindex,
      { hash := 5, nHeight := 1, nTime := 0, pprev := some { hash := 4, nHeight := 0 }
        height_eq := by
          intro prev same
          cases same
          rfl },
      { hash := 4, nHeight := 0, nTime := 0, pprev := none
        height_eq := nofun }]
  linked := .cons_cons rfl (.cons_cons rfl (.singleton _))
  rooted := by
    intro genesis last
    cases last
    exact ⟨rfl, rfl⟩

/-- The databases are as the block left them.  Only the tip can be read from disk. -/
def env : VerifyEnv where
  node := IndexSample.env
  chain := chain
  coinsview := after.getCoin (base payToPublicKeyHash)
  bestBlock := 6
  readBlockFromDisk := fun position => if position.hash = 6 then some block else none
  undoReadable := fun _ => true
  fPruneMode := false
  haveData := fun _ => true
  cacheFits := fun _ => true
  shutdownRequested := fun _ => false

/-- Where the spent index knows the input of that transaction. -/
def spentKey : CSpentIndexKey :=
  { txid := 7, outputIndex := 0 }

end VerifySample

end StakeCubeCoin.Validation
