import StakeCubeCoin.Validation.SpecialTx

namespace StakeCubeCoin.Validation

open Primitives Coins Evo

/-!
# Connecting a block

`CheckTxInputs` of `consensus/tx_verify.cpp`, and `UpdateCoins` and
`CChainState::ConnectBlock` of `validation.cpp`, with every check in its place and
the reason it gives.  The indexes are collected while the transactions are connected
and written at the end.
-/

/-- The three vectors that collect index changes during the loop over the transactions.  They are
written to the block tree database after it. -/
structure IndexBatch where
  addressIndex : List (CAddressIndexKey × CAmount) := []
  addressUnspentIndex : List (CAddressUnspentKey × CAddressUnspentValue) := []
  spentIndex : List (CSpentIndexKey × CSpentIndexValue) := []
  deriving DecidableEq

def IndexBatch.append (first second : IndexBatch) : IndexBatch where
  addressIndex := first.addressIndex ++ second.addressIndex
  addressUnspentIndex := first.addressUnspentIndex ++ second.addressUnspentIndex
  spentIndex := first.spentIndex ++ second.spentIndex

structure ConnectProgress where
  nFees : CAmount := 0
  nSigOps : Nat := 0
  vtxundo : List CTxUndo := []
  vChecks : List CScriptCheck := []
  indexes : IndexBatch := {}

variable (env : NodeEnv) (base : CCoinsView)

/-- One round of the loop of `CheckTxInputs`: the coin has to be there, mature if a coinbase made
it, and the amounts stay in the range of money. -/
def addInputValue (nSpendHeight : Nat) (nValueIn : CAmount) (txin : CTxIn) :
    NodeAction CAmount := do
  let coin <- accessCoin base txin.prevout
  .require (!coin.isSpent) (.assertion "!coin.IsSpent()")
  .require (!(coin.fCoinBase &&
      decide ((nSpendHeight : Int) - (coin.nHeight : Int) < (COINBASE_MATURITY : Int))))
    (.reject (.dos 0 "bad-txns-premature-spend-of-coinbase"))
  .require (moneyRange coin.out.nValue && moneyRange (nValueIn + coin.out.nValue))
    (.reject (.dos 100 "bad-txns-inputvalues-outofrange"))
  pure (nValueIn + coin.out.nValue)

variable (tx : CTransaction)

/-- `CTransaction::GetValueOut`.  The range of the sum has been checked with the block. -/
def getValueOut : CAmount :=
  (tx.vout.map CTxOut.nValue).sum

/-- `CheckTxInputs`: the fee of the transaction.  All inputs have to be there before the first
amount is looked at. -/
def checkTxInputs (nSpendHeight : Nat) : NodeAction CAmount := do
  .forEach
    (fun txin => do
      let have_coin <- haveCoin base txin.prevout
      .require have_coin
        (.reject { nDoS := 100, reason := "bad-txns-inputs-missingorspent",
                   debugMessage := "CheckTxInputs: inputs missing/spent" }))
    tx.vin
  let nValueIn <- .foldEach (addInputValue base nSpendHeight) tx.vin 0
  .require (decide (getValueOut tx <= nValueIn)) (.reject (.dos 100 "bad-txns-in-belowout"))
  .require (moneyRange (nValueIn - getValueOut tx)) (.reject (.dos 100 "bad-txns-fee-outofrange"))
  pure (nValueIn - getValueOut tx)

def prevHeights (heights : List Nat) (txin : CTxIn) : NodeAction (List Nat) := do
  let coin <- accessCoin base txin.prevout
  pure (heights ++ [coin.nHeight])

variable (nHeight i : Nat) (txhash : Uint256)

/-- The index entries for an input that spends the given output.  An output without
an address has type zero and a null hash in the spent index. -/
def connectInputBatch (j : Nat) (prevout : COutPoint) (out : CTxOut) : IndexBatch :=
  let address := indexedAddress env.hash160 out.scriptPubKey
  { addressIndex :=
      match env.fAddressIndex, address with
      | true, some (addressType, hashBytes) =>
        [({ type := addressType, hashBytes, blockHeight := nHeight, txindex := i,
            txhash, index := j, spending := true }, -out.nValue)]
      | _, _ => []
    addressUnspentIndex :=
      match env.fAddressIndex, address with
      | true, some (addressType, hashBytes) =>
        [({ type := addressType, hashBytes, txhash := prevout.hash, index := prevout.n }, {})]
      | _, _ => []
    spentIndex :=
      if env.fSpentIndex then
        [({ txid := prevout.hash, outputIndex := prevout.n },
          { txid := txhash, inputIndex := j, blockHeight := nHeight, satoshis := out.nValue,
            addressType := (address.map Prod.fst).getD 0,
            addressHash := (address.map Prod.snd).getD (List.replicate 20 0) })]
      else
        [] }

def indexInput (batch : IndexBatch) (item : CTxIn × Nat) : NodeAction IndexBatch := do
  let coin <- accessCoin base item.1.prevout
  pure (batch.append (connectInputBatch env nHeight i txhash item.2 item.1.prevout coin.out))

def indexInputs (tx : CTransaction) (batch : IndexBatch) : NodeAction IndexBatch :=
  if env.fAddressIndex || env.fSpentIndex then
    .foldEach (indexInput env base nHeight i tx.hash) tx.vin.zipIdx batch
  else
    pure batch

variable (pindex : BlockPosition)

/-- What is done for the inputs of a transaction that is not a coinbase, before its
scripts are looked at. -/
def connectInputs (i : Nat) (tx : CTransaction)
    (progress : ConnectProgress) : NodeAction ConnectProgress := do
  let txfee <- checkTxInputs base tx pindex.nHeight
  .require (moneyRange (progress.nFees + txfee))
    (.reject (.dos 100 "bad-txns-accumulated-fee-outofrange"))
  let heights <- .foldEach (prevHeights base) tx.vin []
  .require (env.sequenceLocks tx heights pindex) (.reject (.dos 100 "bad-txns-nonfinal"))
  let indexes <- indexInputs env base pindex.nHeight i tx progress.indexes
  pure { progress with nFees := progress.nFees + txfee, indexes }

/-- The index entries for an output, with what is stored for it while it is unspent.  Connecting
stores the output, disconnecting the null value. -/
def outputBatch (k : Nat) (out : CTxOut) (unspent : CAddressUnspentValue) : IndexBatch :=
  match env.fAddressIndex, indexedAddress env.hash160 out.scriptPubKey with
  | true, some (addressType, hashBytes) =>
    { addressIndex :=
        [({ type := addressType, hashBytes, blockHeight := nHeight, txindex := i,
            txhash, index := k, spending := false }, out.nValue)]
      addressUnspentIndex :=
        [({ type := addressType, hashBytes, txhash, index := k }, unspent)] }
  | _, _ => {}

def connectOutputBatch (k : Nat) (out : CTxOut) : IndexBatch :=
  outputBatch env nHeight i txhash k out
    { satoshis := out.nValue, script := out.scriptPubKey, blockHeight := nHeight }

def connectOutputBatches (tx : CTransaction) (batch : IndexBatch) : IndexBatch :=
  tx.vout.zipIdx.foldl
    (fun batch item => batch.append (connectOutputBatch env nHeight i tx.hash item.2 item.1)) batch

/-- The loop of `UpdateCoins` over the inputs: the coins that were spent. -/
def spendInputs : List CTxIn -> NodeAction CTxUndo
  | [] => pure []
  | txin :: rest => do
      let spent <- spendCoin base txin.prevout
      match spent with
      | none => .fail (.assertion "is_spent")
      | some coin => do
          let txundo <- spendInputs rest
          pure (coin :: txundo)

variable (check_for_overwrite : Bool)

/-- Whether an output may overwrite an unspent coin: if asked, exactly if there is one,
and otherwise if it is an output of a coinbase. -/
def mayOverwrite (n : Nat) : NodeAction Bool :=
  if check_for_overwrite then haveCoin base ⟨tx.hash, n⟩ else pure tx.isCoinBase

/-- One round of the loop of `AddCoins`. -/
def addOutput (item : CTxOut × Nat) : NodeAction Unit := do
  let overwrite <- mayOverwrite base tx check_for_overwrite item.2
  addCoin ⟨tx.hash, item.2⟩ { out := item.1, fCoinBase := tx.isCoinBase, nHeight } overwrite

def addCoins : NodeAction Unit :=
  .forEach (addOutput base tx nHeight check_for_overwrite) tx.vout.zipIdx

def spendTransaction : NodeAction CTxUndo :=
  if tx.isCoinBase then pure [] else spendInputs base tx.vin

def updateCoins : NodeAction CTxUndo := do
  let txundo <- spendTransaction base tx
  addCoins base tx nHeight false
  pure txundo

/-- `CheckInputs` for a transaction that is not a coinbase, when scripts are checked.  The checks
that it returns are left to the check queue. -/
def connectScripts (tx : CTransaction) (fJustCheck : Bool)
    (progress : ConnectProgress) : NodeAction ConnectProgress :=
  if !tx.isCoinBase && env.fScriptChecks pindex then do
    let checked <- .read fun state => env.checkInputs tx pindex (state.getCoin base) fJustCheck
    inquire base checked.1
    pure { progress with vChecks := progress.vChecks ++ checked.2 }
  else
    pure progress

def countSigOps (tx : CTransaction) (progress : ConnectProgress) : NodeAction ConnectProgress := do
  let counted <- .read fun state => env.getTransactionSigOpCount tx (state.getCoin base)
  lookUp base counted.2
  .require (decide (progress.nSigOps + counted.1 <=
      maxBlockSigOps (decide (env.DIP0001Height <= pindex.nHeight))))
    (.reject (.dos 100 "bad-blk-sigops"))
  pure { progress with nSigOps := progress.nSigOps + counted.1 }

def fundTransaction (i : Nat) (tx : CTransaction)
    (progress : ConnectProgress) : NodeAction ConnectProgress :=
  if tx.isCoinBase then pure progress else connectInputs env base pindex i tx progress

def connectTransaction (fJustCheck : Bool) (progress : ConnectProgress)
    (item : CTransaction × Nat) : NodeAction ConnectProgress := do
  let funded <- fundTransaction env base pindex item.2 item.1 progress
  let counted <- countSigOps env base pindex item.1 funded
  let checked <- connectScripts env base pindex item.1 fJustCheck counted
  let txundo <- updateCoins base item.1 pindex.nHeight
  pure { checked with
    indexes := connectOutputBatches env pindex.nHeight item.2 item.1 checked.indexes
    vtxundo := if 0 < item.2 then checked.vtxundo ++ [txundo] else checked.vtxundo }

def ETHASH_EPOCH_LENGTH : Nat := 3240

/-- `CheckBlock` runs again.  A block that may have been corrupted should never have been
stored. -/
def checkBlockAgain (block : CBlock) (fJustCheck : Bool) : NodeAction Unit :=
  match checkBlock env.toCheckEnv block (!fJustCheck) (!fJustCheck) with
  | some rejection =>
    if rejection.corruptionPossible then
      .fail (.abortNode "Corrupt block found indicating potential hardware failure; shutting down")
    else
      .fail (.reject rejection)
  | none => pure ()

/-- The checks up to the special case for the genesis block.  The check of the mix hash
is commented out in the source. -/
def connectPreamble (baseBestBlock : Uint256) (block : CBlock) (pindex : BlockPosition)
    (fJustCheck : Bool) : NodeAction Unit := do
  .require (decide (pindex.hash = block.getHash env.prim))
    (.assertion "*pindex->phashBlock == block_hash")
  checkBlockAgain env block fJustCheck
  .require (!(pindex.pprev.isSome && env.hasConflictingChainLock pindex.nHeight pindex.hash))
    (.reject (.dos 10 "bad-chainlock"))
  .require (!(block.header.isProgPow env.prim && !fJustCheck &&
      decide (ETHASH_EPOCH_LENGTH * 2000 <= block.header.nHeight.toNat)))
    (.reject { nDoS := 50, reason := "invalid-progpow-epoch",
               debugMessage := "invalid epoch number" })
  let best <- getBestBlock baseBestBlock
  .require (decide (pindex.hashPrevBlock = best)) (.assertion "hashPrevBlock == view.GetBestBlock()")
  let consistent <- .read fun state => state.evoDb.verifyBestBlock pindex.hashPrevBlock
  .require (!(pindex.pprev.isSome && decide (env.DIP0003Height <= pindex.nHeight) && !consistent))
    (.abortNode "Found EvoDB inconsistency, you must reindex to continue")

def outPoints : List COutPoint :=
  (List.range tx.vout.length).map fun o => ⟨tx.hash, o⟩

/-- The rule against overwriting unspent transactions.  It is checked for all transactions before
the first of them is connected. -/
def checkBIP30 (vtx : List CTransaction) : NodeAction Unit :=
  .forEach
    (fun outpoint => do
      let have_coin <- haveCoin base outpoint
      .require (!have_coin) (.reject (.dos 100 "bad-txns-BIP30")))
    (vtx.flatMap outPoints)

/-- The checks made after all transactions have been connected: the queued scripts, conflicts with
transaction locks, the value of the coinbase and its payees. -/
def connectEpilogue (vtx : List CTransaction) (pindex : BlockPosition) (prev : PrevPosition)
    (progress : ConnectProgress) : NodeAction Unit := do
  .require (env.checkQueueWait progress.vChecks pindex)
    (.reject (.dos 100 "block-validation-failed"))
  .require (!env.hasConflictingTxLock vtx pindex) (.reject (.dos 10 "conflict-tx-lock"))
  let blockReward := progress.nFees + env.getBlockSubsidy prev.nHeight
  .require (env.isBlockValueValid vtx pindex.nHeight blockReward) (.reject (.dos 0 "bad-cb-amount"))
  .require ((vtx.head?.map fun tx =>
      env.isBlockPayeeValid tx pindex.nHeight blockReward).getD false)
    (.reject (.dos 0 "bad-cb-payee"))

/-- `WriteUndoDataForBlock`: only a block without undo data gets it.  Data from an earlier
connection of the block stays. -/
def writeUndoDataForBlock (blockundo : CBlockUndo) (pindex : BlockPosition) : NodeAction Unit :=
  .change fun state =>
    match state.undo pindex.hash with
    | some _ => state
    | none => { state with undo := Function.update state.undo pindex.hash (some blockundo) }

def writeIndexes (indexes : IndexBatch) (db : CBlockTreeDB) : CBlockTreeDB :=
  let addressed :=
    if env.fAddressIndex then
      (db.writeAddressIndex indexes.addressIndex).updateAddressUnspentIndex indexes.addressUnspentIndex
    else
      db
  let spent :=
    if env.fSpentIndex then addressed.updateSpentIndex indexes.spentIndex else addressed
  if env.fTimestampIndex then spent.writeTimestampIndex pindex.nTime pindex.hash else spent

def connectWrites (progress : ConnectProgress) : NodeAction CBlockUndo := do
  let blockundo : CBlockUndo := { vtxundo := progress.vtxundo }
  writeUndoDataForBlock blockundo pindex
  .change fun state =>
    { state with
      blocktree := writeIndexes env pindex progress.indexes state.blocktree
      view := state.view.setBestBlock pindex.hash
      evoDb := state.evoDb.writeBestBlock pindex.hash }
  pure blockundo

/-- What is done for every block but the genesis block: the loop variables at its end.  Special
transactions are processed before the loop. -/
def connectTransactions (block : CBlock) (pindex : BlockPosition) (prev : PrevPosition)
    (fJustCheck : Bool) : NodeAction ConnectProgress := do
  checkBIP30 base block.vtx
  .require (!(decide (pindex.nHeight = env.nSuperblockStartBlock) &&
  !env.nSuperblockStartHash.isNull &&
      decide (block.getHash env.prim ≠ env.nSuperblockStartHash)))
    (.reject (.dos 100 "bad-sb-start"))
  processSpecialTxsInBlock env base block.vtx pindex fJustCheck (env.fScriptChecks pindex)
  let progress <- .foldEach (connectTransaction env base pindex fJustCheck) block.vtx.zipIdx {}
  connectEpilogue env block.vtx pindex prev progress
  pure progress

/-- The genesis block only becomes the best block. -/
def connectGenesis (fJustCheck : Bool) : NodeAction (Option CBlockUndo) :=
  if fJustCheck then
    pure none
  else do
    .change fun state => { state with view := state.view.setBestBlock pindex.hash }
    pure none

/-- `CChainState::ConnectBlock`, over a base with the given best block.  It returns the undo data;
there is none for the genesis block and a block that is only checked. -/
def connectBlock (baseBestBlock : Uint256) (block : CBlock) (pindex : BlockPosition)
    (fJustCheck : Bool) : NodeAction (Option CBlockUndo) := do
  connectPreamble env baseBestBlock block pindex fJustCheck
  if block.getHash env.prim = env.hashGenesisBlock then
    connectGenesis pindex fJustCheck
  else
    match pindex.pprev with
    | none => .fail (.assertion "pindex->pprev")
    | some prev => do
        let progress <- connectTransactions env base block pindex prev fJustCheck
        if fJustCheck then
          pure none
        else do
          let blockundo <- connectWrites env pindex progress
          pure (some blockundo)

end StakeCubeCoin.Validation
