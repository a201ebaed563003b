import StakeCubeCoin.Validation.ConnectBlock

namespace StakeCubeCoin.Validation

open Primitives Coins

/-!
# Disconnecting a block

`ApplyTxInUndo` and `CChainState::DisconnectBlock` of `validation.cpp`.  Transactions
and inputs are walked backwards; the indexes are collected on the way, with a branch
of its own for inputs that spend a public key output.
-/

inductive DisconnectResult where
  | ok
  | unclean
  | failed
  deriving DecidableEq

/-- `MAX_OUTPUTS_PER_BLOCK`: an empty output takes nine bytes. -/
def MAX_OUTPUTS_PER_BLOCK : Nat := MAX_DIP0001_BLOCK_SIZE / 9

structure DisconnectProgress where
  fClean : Bool := true
  indexes : IndexBatch := {}

variable (env : NodeEnv) (base : CCoinsView)

/-- The loop of `AccessByTxid`, with the number of outputs left to look at. -/
def accessByTxidFrom (txid : Uint256) : Nat -> Nat -> NodeAction Coin
  | 0, _ => pure Coin.empty
  | remaining + 1, n => do
      let alternate <- accessCoin base ⟨txid, n⟩
      if alternate.isSpent then accessByTxidFrom txid remaining (n + 1) else pure alternate

def accessByTxid (txid : Uint256) : NodeAction Coin :=
  accessByTxidFrom base txid MAX_OUTPUTS_PER_BLOCK 0

variable (undo : Coin)

/-- Fill in the height and the coinbase flag that old undo records lack, from another output of the
same transaction that is still unspent. -/
def completeUndo (out : COutPoint) : NodeAction Coin :=
  if undo.nHeight = 0 then do
    let alternate <- accessByTxid base out.hash
    if alternate.isSpent then
      .fail (.disconnectFailed "adding output for transaction without known metadata")
    else
      pure { undo with nHeight := alternate.nHeight, fCoinBase := alternate.fCoinBase }
  else
    pure undo

/-- `ApplyTxInUndo`: whether the restored output was absent.  One that is there is overwritten, and
the result is not clean. -/
def applyTxInUndo (out : COutPoint) : NodeAction Bool := do
  let have_coin <- haveCoin base out
  let completed <- completeUndo base undo out
  addCoin out completed have_coin
  pure (!have_coin)

variable (nHeight i : Nat) (txhash : Uint256)

/-- The index entries for an input, once the output it spent is restored.  For an output that pays
to a public key, the key to be erased is not marked as spending. -/
def disconnectInputBatch (j : Nat) (prevout : COutPoint)
    (out : CTxOut) (undoHeight : Nat) : IndexBatch where
  addressIndex :=
    match env.fAddressIndex, indexedAddress env.hash160 out.scriptPubKey with
    | true, some (addressType, hashBytes) =>
      if out.scriptPubKey.isPayToPublicKey then
        [({ type := addressType, hashBytes, blockHeight := nHeight, txindex := i,
            txhash, index := j, spending := false }, out.nValue)]
      else
        [({ type := addressType, hashBytes, blockHeight := nHeight, txindex := i,
            txhash, index := j, spending := true }, -out.nValue)]
    | _, _ => []
  addressUnspentIndex :=
    match env.fAddressIndex, indexedAddress env.hash160 out.scriptPubKey with
    | true, some (addressType, hashBytes) =>
      if out.scriptPubKey.isPayToPublicKey then
        [({ type := addressType, hashBytes, txhash, index := j }, {})]
      else
        [({ type := addressType, hashBytes, txhash := prevout.hash, index := prevout.n },
          { satoshis := out.nValue, script := out.scriptPubKey, blockHeight := undoHeight })]
    | _, _ => []
  spentIndex :=
    if env.fSpentIndex then
      [({ txid := prevout.hash, outputIndex := prevout.n }, {})]
    else
      []

/-- The restored coin is read back for the address index only. -/
def restoredCoin (prevout : COutPoint) : NodeAction Coin :=
  if env.fAddressIndex then accessCoin base prevout else pure undo

def restoreInput (progress : DisconnectProgress)
    (item : (CTxIn × Coin) × Nat) : NodeAction DisconnectProgress := do
  let clean <- applyTxInUndo base item.1.2 item.1.1.prevout
  let coin <- restoredCoin env base item.1.2 item.1.1.prevout
  pure
    { fClean := progress.fClean && clean
      indexes := progress.indexes.append
        (disconnectInputBatch env nHeight i txhash item.2 item.1.1.prevout coin.out item.1.2.nHeight) }

def disconnectOutputBatch (k : Nat) (out : CTxOut) : IndexBatch :=
  outputBatch env nHeight i txhash k out {}

def disconnectOutputBatches (tx : CTransaction) (batch : IndexBatch) : IndexBatch :=
  tx.vout.zipIdx.reverse.foldl
    (fun batch item => batch.append (disconnectOutputBatch env nHeight i tx.hash item.2 item.1))
    batch

/-- One round of the loop that takes the outputs back.  They have to match the outputs
of the block. -/
def takeOutput (tx : CTransaction) (nHeight : Nat) (fClean : Bool) (item : CTxOut × Nat) :
    NodeAction Bool :=
  if item.1.scriptPubKey.isUnspendable then
    pure fClean
  else do
    let spent <- spendCoin base ⟨tx.hash, item.2⟩
    pure (fClean &&
      (spent.map fun coin => decide (item.1 = coin.out) && decide (nHeight = coin.nHeight) &&
        decide (tx.isCoinBase = coin.fCoinBase)).getD false)

/-- Restore the inputs of the transaction at a position after the coinbase, the last one first.
There has to be undo data for each of them. -/
def restoreInputs (pindex : BlockPosition) (blockUndo : CBlockUndo) (i : Nat) (tx : CTransaction)
    (progress : DisconnectProgress) : NodeAction DisconnectProgress :=
  match blockUndo.vtxundo[i - 1]? with
  | none => .fail (.assertion "i - 1 < blockUndo.vtxundo.size()")
  | some txundo => do
      .require (decide (txundo.length = tx.vin.length))
        (.disconnectFailed "DisconnectBlock(): transaction and undo data inconsistent")
      .foldEach (restoreInput env base pindex.nHeight i tx.hash)
        (tx.vin.zip txundo).zipIdx.reverse progress

def disconnectTransaction (pindex : BlockPosition) (blockUndo : CBlockUndo)
    (progress : DisconnectProgress) (item : CTransaction × Nat) :
    NodeAction DisconnectProgress := do
  let fClean <- .foldEach (takeOutput base item.1 pindex.nHeight) item.1.vout.zipIdx progress.fClean
  let taken : DisconnectProgress :=
    { fClean := fClean
      indexes := disconnectOutputBatches env pindex.nHeight item.2 item.1 progress.indexes }
  if 0 < item.2 then
    restoreInputs env base pindex blockUndo item.2 item.1 taken
  else
    pure taken

def undoIndexes (indexes : IndexBatch) (db : CBlockTreeDB) : CBlockTreeDB :=
  let spent := if env.fSpentIndex then db.updateSpentIndex indexes.spentIndex else db
  if env.fAddressIndex then
    (spent.eraseAddressIndex indexes.addressIndex).updateAddressUnspentIndex indexes.addressUnspentIndex
  else
    spent

variable (block : CBlock)

/-- `DisconnectBlock` once the undo data has been read, with its early returns as
failures. -/
def disconnectWith (pindex : BlockPosition) (blockUndo : CBlockUndo) : NodeAction Bool := do
  .require (decide (blockUndo.vtxundo.length + 1 = block.vtx.length))
    (.disconnectFailed "DisconnectBlock(): block and undo data inconsistent")
  let undone <- undoSpecialTxsInBlock env block.vtx pindex
  .require undone (.disconnectFailed "UndoSpecialTxsInBlock")
  let progress <- .foldEach (disconnectTransaction env base pindex blockUndo) block.vtx.zipIdx.reverse {}
  .change fun state =>
    { state with blocktree := undoIndexes env progress.indexes state.blocktree }
  match pindex.pprev with
  | none => .fail (.assertion "pindex->pprev")
  | some prev => do
      .change fun state =>
        { state with
          view := state.view.setBestBlock prev.hash
          evoDb := state.evoDb.writeBestBlock prev.hash }
      pure progress.fClean

/-- The body of `DisconnectBlock`, with its early returns as failures. -/
def disconnectBody (pindex : BlockPosition) : NodeAction Bool := do
  let consistent <- .read fun state => state.evoDb.verifyBestBlock pindex.hash
  .require (!(decide (env.DIP0003Height <= pindex.nHeight) && !consistent))
    (.abortNode "Found EvoDB inconsistency, you must reindex to continue")
  let undo <- .read fun state => state.undo pindex.hash
  match undo with
  | none => .fail (.disconnectFailed "DisconnectBlock(): failure reading undo data")
  | some blockUndo => disconnectWith env base block pindex blockUndo

/-- The failures on which `DisconnectBlock` returns `DISCONNECT_FAILED`. -/
def disconnectFailure : Failure -> Option DisconnectResult
  | .abortNode _ => some .failed
  | .disconnectFailed _ => some .failed
  | _ => none

def disconnectBlock (pindex : BlockPosition) : NodeAction DisconnectResult :=
  .recover disconnectFailure do
    let fClean <- disconnectBody env base block pindex
    pure (if fClean then .ok else .unclean)

end StakeCubeCoin.Validation
