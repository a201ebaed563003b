import StakeCubeCoin.Library.Store
import StakeCubeCoin.Primitives.Transaction

namespace StakeCubeCoin.Validation

open Primitives Library

/-!
# Address and spent indexes

The three optional indexes of the block tree database: keys and values of
`spentindex.h`, the batch calls of `txdb.cpp`, and the address that an output script
is indexed under.
-/

structure CAddressIndexKey where
  type : Nat
  hashBytes : Uint160
  blockHeight : Nat
  txindex : Nat
  txhash : Uint256
  index : Nat
  spending : Bool
  deriving DecidableEq

structure CAddressUnspentKey where
  type : Nat
  hashBytes : Uint160
  txhash : Uint256
  index : Nat
  deriving DecidableEq

structure CAddressUnspentValue where
  satoshis : CAmount := -1
  script : CScript := []
  blockHeight : Nat := 0
  deriving DecidableEq

structure CSpentIndexKey where
  txid : Uint256
  outputIndex : Nat
  deriving DecidableEq

structure CSpentIndexValue where
  txid : Uint256 := 0
  inputIndex : Nat := 0
  blockHeight : Nat := 0
  satoshis : CAmount := 0
  addressType : Nat := 0
  addressHash : Uint160 := List.replicate 20 0
  deriving DecidableEq

def CAddressUnspentValue.isNull (value : CAddressUnspentValue) : Bool :=
  value.satoshis == -1

def CSpentIndexValue.isNull (value : CSpentIndexValue) : Bool :=
  value.txid.isNull

/-- The part of `CBlockTreeDB` that holds the indexes. -/
structure CBlockTreeDB where
  addressIndex : Store CAddressIndexKey CAmount
  addressUnspentIndex : Store CAddressUnspentKey CAddressUnspentValue
  spentIndex : Store CSpentIndexKey CSpentIndexValue
  timestampIndex : Store (BitVec 32 × Uint256) Unit

/-- A vector of keys and values as a batch which erases the keys with null values. -/
def updateOps {K V : Type} (isNull : V -> Bool) (vect : List (K × V)) : List (BatchOp K V) :=
  vect.map fun item => if isNull item.2 then .erase item.1 else .write item.1 item.2

namespace CBlockTreeDB

variable (db : CBlockTreeDB) (vect : List (CAddressIndexKey × CAmount))

def writeAddressIndex : CBlockTreeDB :=
  { db with addressIndex :=
    writeBatch db.addressIndex (vect.map fun item => .write item.1 item.2) }

def eraseAddressIndex : CBlockTreeDB :=
  { db with addressIndex := writeBatch db.addressIndex (vect.map fun item => .erase item.1) }

def updateAddressUnspentIndex (vect : List (CAddressUnspentKey × CAddressUnspentValue)) :
    CBlockTreeDB :=
  { db with addressUnspentIndex :=
    writeBatch db.addressUnspentIndex (updateOps CAddressUnspentValue.isNull vect) }

def updateSpentIndex (vect : List (CSpentIndexKey × CSpentIndexValue)) : CBlockTreeDB :=
  { db with spentIndex := writeBatch db.spentIndex (updateOps CSpentIndexValue.isNull vect) }

def writeTimestampIndex (timestamp : BitVec 32) (blockHash : Uint256) : CBlockTreeDB :=
  { db with timestampIndex := Function.update db.timestampIndex (timestamp, blockHash) (some ()) }

end CBlockTreeDB

/-- The address type and hash a script is indexed under.  The bytes of a key are
hashed with `hash160`. -/
def indexedAddress (hash160 : List UInt8 -> Uint160) (script : CScript) : Option (Nat × Uint160) :=
  if script.isPayToScriptHash then
    some (2, (script.drop 2).take 20)
  else if script.isPayToPublicKeyHash then
    some (1, (script.drop 3).take 20)
  else if script.isPayToPublicKey then
    some (1, hash160 ((script.drop 1).dropLast))
  else
    none

end StakeCubeCoin.Validation
