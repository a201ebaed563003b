import StakeCubeCoin.Library.Store
import StakeCubeCoin.Primitives.Transaction

namespace StakeCubeCoin.Evo

open Primitives Library

/-!
# The database of the masternode and quorum code

`CEvoDB` of `evo/evodb.{h,cpp}` over `CDBTransaction` of `dbwrapper.h`.  Changes go
to a current transaction, which is committed to a root transaction or rolled back;
the root transaction is written to disk together with the coins.  A transaction
keeps the last change to each key, so it is modelled as the list of its changes.
-/

/-- The keys that the block code uses by name; the lists of masternodes and the
remaining records are kept under `other`. -/
inductive EvoKey where
  | bestBlock
  | bestBlockUpgrade
  | minedCommitment (llmqType : Nat) (quorumHash : Uint256)
  | minedCommitmentByInversedHeight (llmqType : Nat) (nMinedHeight : Nat)
  | other (bytes : List UInt8)
  deriving DecidableEq

/-- Stored values: block hashes, and everything else by its bytes. -/
inductive EvoValue where
  | hash (value : Uint256)
  | other (bytes : List UInt8)
  deriving DecidableEq

abbrev EvoOp := BatchOp EvoKey EvoValue

structure CEvoDB where
  db : Store EvoKey EvoValue
  rootDBTransaction : List EvoOp := []
  curDBTransaction : List EvoOp := []

namespace CEvoDB

variable (evoDb : CEvoDB)

/-- `CEvoDB::Read`, through both transactions. -/
def read (key : EvoKey) : Option EvoValue :=
  writeBatch (writeBatch evoDb.db evoDb.rootDBTransaction) evoDb.curDBTransaction key

/-- Any number of `Write` and `Erase` calls. -/
def apply (ops : List EvoOp) : CEvoDB :=
  { evoDb with curDBTransaction := evoDb.curDBTransaction ++ ops }

variable (hash : Uint256)

def writeBestBlock : CEvoDB :=
  evoDb.apply [.write .bestBlock (.hash hash)]

def verifyBestBlock : Bool :=
  evoDb.read .bestBlock == some (.hash hash)

def commitCurTransaction : CEvoDB :=
  { evoDb with
    rootDBTransaction := evoDb.rootDBTransaction ++ evoDb.curDBTransaction
    curDBTransaction := [] }

/-- `RollbackCurTransaction`, which also ends a scope that did not commit. -/
def rollbackCurTransaction : CEvoDB :=
  { evoDb with curDBTransaction := [] }

theorem read_apply (ops : List EvoOp) (key : EvoKey) :
    (evoDb.apply ops).read key = (lastOp ops key).getD (evoDb.read key) := by
  rw [read, apply, writeBatch_append, writeBatch_eq_lastOp]
  rfl

theorem read_apply_single (op : EvoOp) (key : EvoKey) :
    (evoDb.apply [op]).read key = if op.key = key then op.value else evoDb.read key := by
  rw [read_apply, lastOp_cons, lastOp_nil]
  split <;> rfl

theorem read_apply_of_untouched {ops : List EvoOp} {key : EvoKey}
    (untouched : ∀ op ∈ ops, op.key ≠ key) : (evoDb.apply ops).read key = evoDb.read key := by
  rw [read_apply, (lastOp_eq_none_iff ops key).mpr untouched, Option.getD_none]

/-- Where all changes of a key agree, their value is read. -/
theorem read_apply_of_agree {ops : List EvoOp} {op : EvoOp} (member : op ∈ ops)
    (agree : ∀ other ∈ ops, other.key = op.key -> other.value = op.value) :
    (evoDb.apply ops).read op.key = op.value := by
  rw [read, apply, writeBatch_append]
  exact writeBatch_of_agree _ ⟨op, member, rfl⟩ agree

theorem apply_nil : evoDb.apply [] = evoDb := by
  rw [apply, List.append_nil]

theorem apply_append (first second : List EvoOp) :
    (evoDb.apply first).apply second = evoDb.apply (first ++ second) := by
  rw [apply, apply, apply, List.append_assoc]

theorem read_commitCurTransaction (key : EvoKey) :
    evoDb.commitCurTransaction.read key = evoDb.read key := by
  rw [read, read, commitCurTransaction, writeBatch_nil, writeBatch_append]

theorem verifyBestBlock_writeBestBlock :
    (evoDb.writeBestBlock hash).verifyBestBlock hash = true := by
  rw [verifyBestBlock, writeBestBlock, read_apply]
  simp [lastOp, BatchOp.key, BatchOp.value]

end CEvoDB
end StakeCubeCoin.Evo
