import Mathlib.Data.BitVec

namespace StakeCubeCoin.Primitives

/-!
# Transactions, outputs and script templates

The records of `primitives/transaction.h`, and the script templates of
`script/script.cpp` which the coins database and the address indexes inspect.

A transaction carries its identifier as a field, as the source does (the hash is
computed once, at construction).  How it is computed from the other fields is
left open, so every result below holds for any assignment of identifiers to
transactions, injective or not.
-/

abbrev Uint256 := BitVec 256

def Uint256.isNull (hash : Uint256) : Bool :=
  hash == 0#256

/-- A 160-bit opaque blob, kept as the bytes it is cut from. -/
abbrev Uint160 := List UInt8

abbrev CAmount := Int

abbrev CScript := List UInt8

namespace Opcode

def OP_RETURN : UInt8 := 0x6a
def OP_DUP : UInt8 := 0x76
def OP_EQUAL : UInt8 := 0x87
def OP_EQUALVERIFY : UInt8 := 0x88
def OP_HASH160 : UInt8 := 0xa9
def OP_CHECKSIG : UInt8 := 0xac

end Opcode

open Opcode

def MAX_SCRIPT_SIZE : Nat := 10000

namespace CScript

variable (script : CScript)

def isUnspendable : Bool :=
  script.head? == some OP_RETURN || decide (MAX_SCRIPT_SIZE < script.length)

def isPayToPublicKeyHash : Bool :=
  script.length == 25 && script[0]? == some OP_DUP && script[1]? == some OP_HASH160 &&
    script[2]? == some 0x14 &&
    script[23]? == some OP_EQUALVERIFY &&
    script[24]? == some OP_CHECKSIG

def isPayToScriptHash : Bool :=
  script.length == 23 && script[0]? == some OP_HASH160 && script[1]? == some 0x14 &&
    script[22]? == some OP_EQUAL

/-- `CScript::IsPayToPublicKey`.  The push opcode at offset `0` is not looked at. -/
def isPayToPublicKey : Bool :=
  if script.length == 35 then
    (script[1]? == some 0x02 || script[1]? == some 0x03) && script[34]? == some OP_CHECKSIG
  else if script.length == 67 then
    script[1]? == some 0x04 && script[66]? == some OP_CHECKSIG
  else
    false

end CScript

/-! ## Outpoints, inputs and outputs -/

/-- An outpoint: a transaction hash and an index into its outputs. -/
structure COutPoint where
  hash : Uint256
  n : Nat
  deriving DecidableEq

namespace COutPoint

/-- The index of a null outpoint, `std::numeric_limits<uint32_t>::max()`. -/
def NULL_INDEX : Nat := 4294967295

def isNull (outpoint : COutPoint) : Bool :=
  outpoint.hash.isNull && outpoint.n == NULL_INDEX

end COutPoint

/-- An input.  Signature scripts are only read by script verification, which is
a parameter of the block model. -/
structure CTxIn where
  prevout : COutPoint
  scriptSig : CScript := []
  nSequence : Nat := 0xffffffff
  deriving DecidableEq

structure CTxOut where
  nValue : CAmount
  scriptPubKey : CScript
  deriving DecidableEq

namespace CTxOut

def null : CTxOut :=
  ⟨-1, []⟩

def isNull (out : CTxOut) : Bool :=
  out.nValue == -1

end CTxOut

/-- The transaction types of `primitives/transaction.h`; `other` stands for the
remaining values of the sixteen-bit field. -/
inductive TxType where
  | normal
  | providerRegister
  | providerUpdateService
  | providerUpdateRegistrar
  | providerUpdateRevoke
  | coinbase
  | quorumCommitment
  | mnhfSignal
  | other (value : Nat)
  deriving DecidableEq

structure CTransaction where
  vin : List CTxIn
  vout : List CTxOut
  nVersion : Int := 2
  nType : TxType := .normal
  nLockTime : Nat := 0
  vExtraPayload : List UInt8 := []
  hash : Uint256
  deriving DecidableEq

namespace CTransaction

/-- `CTransaction::IsCoinBase`: exactly one input, whose outpoint is null. -/
def isCoinBase (tx : CTransaction) : Bool :=
  match tx.vin with
  | [input] => input.prevout.isNull
  | _ => false

end CTransaction
end StakeCubeCoin.Primitives
