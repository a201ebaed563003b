import StakeCubeCoin.Coins.Layer

namespace StakeCubeCoin.Coins

open Primitives Library List

/-!
# The coins database

`CCoinsViewDB` of `txdb.cpp`.  A flush is written in several batches, each of them
atomic.  The first replaces the best block by a mark that names the new and the old
tip, and the last puts the best block back.
-/

inductive CoinsDbOp where
  | coin (op : BatchOp COutPoint Coin)
  | bestBlock (value : Option Uint256)
  | headBlocks (value : Option (List Uint256))
  deriving DecidableEq

/-- `CCoinsViewDB`: the records under `DB_COIN`, `DB_BEST_BLOCK` and `DB_HEAD_BLOCKS`. -/
structure CCoinsViewDB where
  coins : Store COutPoint Coin
  bestBlock : Option Uint256
  headBlocks : Option (List Uint256)

namespace CCoinsViewDB

variable (db : CCoinsViewDB)

def getBestBlock : Uint256 :=
  db.bestBlock.getD 0

def getHeadBlocks : List Uint256 :=
  db.headBlocks.getD []

def apply (db : CCoinsViewDB) : CoinsDbOp -> CCoinsViewDB
  | .coin op => { db with coins := op.apply db.coins }
  | .bestBlock value => { db with bestBlock := value }
  | .headBlocks value => { db with headBlocks := value }

def writeBatch (batch : List CoinsDbOp) : CCoinsViewDB :=
  batch.foldl apply db

/-- The tip that the flush starts from.  It is taken from the mark if a flush to the same
block was interrupted. -/
def oldTip (hashBlock : Uint256) : Except CoinsError Uint256 :=
  if db.getBestBlock.isNull then
    match db.getHeadBlocks with
    | [first, second] =>
      if first = hashBlock then .ok second else .error (.assertion "old_heads[0] == hashBlock")
    | _ => .ok db.getBestBlock
  else
    .ok db.getBestBlock

def entryOps (item : CCoinsItem) : List CoinsDbOp :=
  (dirtyOp item).toList.map .coin

/-- The loop of `BatchWrite`: the batches that are written, given the current one.
`full` tells when a batch has become too large. -/
def batchLoop (full : List CoinsDbOp -> Bool) (hashBlock : Uint256) :
    List CCoinsItem -> List CoinsDbOp -> List (List CoinsDbOp)
  | [], batch => [batch ++ [.headBlocks none, .bestBlock (some hashBlock)]]
  | item :: rest, batch =>
    if full (batch ++ entryOps item) then
      (batch ++ entryOps item) :: batchLoop full hashBlock rest []
    else
      batchLoop full hashBlock rest (batch ++ entryOps item)

def markOps (hashBlock old_tip : Uint256) : List CoinsDbOp :=
  [.bestBlock none, .headBlocks (some [hashBlock, old_tip])]

/-- `CCoinsViewDB::BatchWrite`: the batches that are written, in order. -/
def batchWrite (full : List CoinsDbOp -> Bool) (items : List CCoinsItem)
    (hashBlock : Uint256) : Except CoinsError (List (List CoinsDbOp)) :=
  if hashBlock.isNull then
    .error (.assertion "!hashBlock.IsNull()")
  else
    match db.oldTip hashBlock with
    | .error error => .error error
    | .ok old_tip => .ok (batchLoop full hashBlock items (markOps hashBlock old_tip))

variable (db : CCoinsViewDB)

theorem writeBatch_append (first second : List CoinsDbOp) :
    db.writeBatch (first ++ second) = (db.writeBatch first).writeBatch second :=
  foldl_append

variable (items : List CCoinsItem)

variable (full : List CoinsDbOp -> Bool) (hashBlock : Uint256)

end CCoinsViewDB
end StakeCubeCoin.Coins
