import StakeCubeCoin.Evo.EvoDb
import StakeCubeCoin.Validation.Checks
import StakeCubeCoin.Validation.Indexes

namespace StakeCubeCoin.Validation

open Primitives Coins Evo Library

/-!
# What connecting and disconnecting a block works on

A block is connected and disconnected at a position in the tree of blocks, on a
coins view, the database of the masternode code, the block tree database and the
undo files.  Code of other files that takes part is a parameter: it may look at the
coins and at the masternode database, and it reports what it did.
-/

structure PrevPosition where
  hash : Uint256
  nHeight : Nat
  deriving DecidableEq

/-- What is read of the block index entry of a block.  Its height is one more than
that of the previous entry. -/
structure BlockPosition where
  hash : Uint256
  nHeight : Nat
  nTime : BitVec 32
  pprev : Option PrevPosition
  height_eq : ∀ prev, pprev = some prev -> nHeight = prev.nHeight + 1

/-- `pindex->pprev == nullptr ? uint256() : pindex->pprev->GetBlockHash()`. -/
def BlockPosition.hashPrevBlock (pindex : BlockPosition) : Uint256 :=
  (pindex.pprev.map PrevPosition.hash).getD 0

abbrev CTxUndo := List Coin

/-- `CBlockUndo`, for all transactions but the coinbase. -/
structure CBlockUndo where
  vtxundo : List CTxUndo
  deriving DecidableEq

/-- The state that connecting and disconnecting change.  Undo data is found by the
hash of the block it belongs to. -/
structure NodeState where
  view : CCoinsViewCache
  evoDb : CEvoDB
  blocktree : CBlockTreeDB
  undo : Store Uint256 CBlockUndo

abbrev NodeAction (α : Type) := Action NodeState Failure α

/-- What code outside the model found: whether it failed, and which coins it looked
up for that. -/
structure Inquiry where
  failure : Option Rejection := none
  reads : List COutPoint := []

/-- What code outside the model did: as above, and what it wrote to the masternode
database before it returned. -/
structure Report extends Inquiry where
  ops : List EvoOp := []

structure CScriptCheck where
  m_tx_out : CTxOut
  ptxTo : CTransaction
  nIn : Nat
  deriving DecidableEq

/-- A final commitment, as far as the block code looks at it. -/
structure CFinalCommitment where
  llmqType : Nat
  quorumHash : Uint256
  isNull : Bool
  deriving DecidableEq

/-- Consensus parameters, options of the node, and code of other files.  Functions that read coins
are given the answers of `GetCoin`, those that read the masternode database those of `Read`. -/
structure NodeEnv extends CheckEnv where
  DIP0001Height : Nat
  DIP0003Height : Nat
  nSuperblockStartBlock : Nat
  nSuperblockStartHash : Uint256
  fAddressIndex : Bool
  fSpentIndex : Bool
  fTimestampIndex : Bool
  hash160 : List UInt8 -> Uint160
  hasConflictingChainLock : Nat -> Uint256 -> Bool
  /-- Whether scripts are checked, or the block is assumed valid. -/
  fScriptChecks : BlockPosition -> Bool
  /-- The checks of `CheckSpecialTx` that depend on the type of the transaction. -/
  checkSpecialTxByType : CTransaction -> BlockPosition -> (EvoKey -> Option EvoValue) ->
    CCoinsView -> Bool -> Inquiry
  /-- `GetTxPayload` for a final commitment. -/
  getTxPayload : CTransaction -> Option CFinalCommitment
  /-- `CQuorumBlockProcessor::ProcessBlock` after the commitments have been collected. -/
  processCommitments : List CFinalCommitment -> BlockPosition -> (EvoKey -> Option EvoValue) ->
    Bool -> Bool -> Report
  /-- `CDeterministicMNManager::ProcessBlock` after activation. -/
  processMasternodes : List CTransaction -> BlockPosition -> (EvoKey -> Option EvoValue) ->
    CCoinsView -> Bool -> Report
  checkCbTxMerkleRoots : List CTransaction -> BlockPosition -> (EvoKey -> Option EvoValue) ->
    CCoinsView -> Inquiry
  /-- `SequenceLocks` with the lock time flags of the position. -/
  sequenceLocks : CTransaction -> List Nat -> BlockPosition -> Bool
  getTransactionSigOpCount : CTransaction -> CCoinsView -> Nat × List COutPoint
  /-- `CheckInputs`, with the checks that it leaves to the queue. -/
  checkInputs : CTransaction -> BlockPosition -> CCoinsView -> Bool -> Inquiry × List CScriptCheck
  checkQueueWait : List CScriptCheck -> BlockPosition -> Bool
  hasConflictingTxLock : List CTransaction -> BlockPosition -> Bool
  getBlockSubsidy : Nat -> CAmount
  isBlockValueValid : List CTransaction -> Nat -> CAmount -> Bool
  isBlockPayeeValid : CTransaction -> Nat -> CAmount -> Bool

/-- An environment in which all code outside the model accepts, a block is identified by
its nonce, and a public key hashes to its first bytes. -/
def NodeEnv.permissive (DIP0003Height : Nat) (fAddressIndex fSpentIndex : Bool) : NodeEnv where
  prim :=
    { hashX11 := fun bytes => BitVec.ofNat 256 (ofLittleEndian (bytes.drop 76))
      hash256 := fun _ => 0
      progpowHash := fun _ _ _ => (0, 0)
      hashSeed := fun _ _ => 0
      hashFinal := fun _ mix => mix
      nPPSwitchTime := 0xffffffff }
  checkProofOfWork := fun _ _ => true
  getNHeight := fun _ => 1
  hashGenesisBlock := 0
  hashDevnetGenesisBlock := 0
  blockMerkleRoot := fun _ => (0, false)
  vtxSize := fun _ => 0
  txSize := fun _ => 0
  getLegacySigOpCount := fun _ => 0
  DIP0001Height := 0
  DIP0003Height := DIP0003Height
  nSuperblockStartBlock := 0
  nSuperblockStartHash := 0
  fAddressIndex := fAddressIndex
  fSpentIndex := fSpentIndex
  fTimestampIndex := false
  hash160 := fun bytes => bytes.take 20
  hasConflictingChainLock := fun _ _ => false
  fScriptChecks := fun _ => true
  checkSpecialTxByType := fun _ _ _ _ _ => {}
  getTxPayload := fun _ => none
  processCommitments := fun _ _ _ _ _ => {}
  processMasternodes := fun _ _ _ _ _ => {}
  checkCbTxMerkleRoots := fun _ _ _ _ => {}
  sequenceLocks := fun _ _ _ => true
  getTransactionSigOpCount := fun _ _ => (0, [])
  checkInputs := fun _ _ _ _ => ({}, [])
  checkQueueWait := fun _ _ => true
  hasConflictingTxLock := fun _ _ => false
  getBlockSubsidy := fun _ => 0
  isBlockValueValid := fun _ _ _ => true
  isBlockPayeeValid := fun _ _ _ => true

/-! ## Actions on the view -/

variable (base : CCoinsView)

def NodeState.getCoin (state : NodeState) : CCoinsView :=
  fun outpoint => (state.view.getCoin base outpoint).1

/-- Coins looked up by code outside the model end up in the cache. -/
def lookUp (reads : List COutPoint) : NodeAction Unit :=
  .change fun state =>
    { state with view := reads.foldl (fun view outpoint => view.fetchCoin base outpoint) state.view }

def haveCoin (outpoint : COutPoint) : NodeAction Bool :=
  .exchange fun state =>
    let read := state.view.haveCoin base outpoint
    (read.1, { state with view := read.2 })

def accessCoin (outpoint : COutPoint) : NodeAction Coin :=
  .exchange fun state =>
    let read := state.view.accessCoin base outpoint
    (read.1, { state with view := read.2 })

def spendCoin (outpoint : COutPoint) : NodeAction (Option Coin) :=
  .exchange fun state =>
    let spent := state.view.spendCoin base outpoint
    (spent.1, { state with view := spent.2 })

def addCoin (outpoint : COutPoint) (coin : Coin) (possible_overwrite : Bool) : NodeAction Unit :=
  fun state =>
    match state.view.addCoin outpoint coin possible_overwrite with
    | .error error => (.error (.thrown error), state)
    | .ok view => (.ok (), { state with view })

theorem run_addCoin_of_ok {outpoint : COutPoint} {coin : Coin} {possible_overwrite : Bool}
    {state : NodeState} {view : CCoinsViewCache}
    (added : state.view.addCoin outpoint coin possible_overwrite = .ok view) :
    (addCoin outpoint coin possible_overwrite).run state = (.ok (), { state with view }) := by
  unfold Action.run addCoin
  rw [added]

theorem run_addCoin_of_error {outpoint : COutPoint} {coin : Coin} {possible_overwrite : Bool}
    {state : NodeState} {error : CoinsError}
    (failed : state.view.addCoin outpoint coin possible_overwrite = .error error) :
    (addCoin outpoint coin possible_overwrite).run state = (.error (.thrown error), state) := by
  unfold Action.run addCoin
  rw [failed]

/-- `view.GetBestBlock`, over a base with the given best block.  The answer of the base is
remembered by the view. -/
def getBestBlock (baseBestBlock : Uint256) : NodeAction Uint256 :=
  .exchange fun state =>
    let read := state.view.getBestBlock baseBestBlock
    (read.1, { state with view := read.2 })

def inquire (inquiry : Inquiry) : NodeAction Unit := do
  lookUp base inquiry.reads
  match inquiry.failure with
  | some rejection => .fail (.reject rejection)
  | none => pure ()

/-- Perform what a report says, and fail if it does. -/
def carryOut (report : Report) : NodeAction Unit := do
  .change fun state => { state with evoDb := state.evoDb.apply report.ops }
  inquire base report.toInquiry

end StakeCubeCoin.Validation
