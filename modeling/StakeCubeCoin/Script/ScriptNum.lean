import StakeCubeCoin.Library.Bytes
import StakeCubeCoin.Primitives.Transaction

namespace StakeCubeCoin.Script

open Library

/-!
# Numbers and truth values on the script stack

`CScriptNum` of `script/script.{h,cpp}` and `CastToBool` of `script/interpreter.cpp`.  A
number is a little-endian byte string whose highest bit is the sign.  Operands are read
from strings of at most four (for lock times five) bytes; results may be longer and are
only refused when they are used as operands again.
-/

abbrev Valtype := List UInt8

/-- The outcomes of the interpreter which are named in `script/script_error.h`. -/
inductive ScriptError where
  | UNKNOWN_ERROR
  | EVAL_FALSE
  | OP_RETURN
  | SCRIPT_SIZE
  | PUSH_SIZE
  | OP_COUNT
  | STACK_SIZE
  | SIG_COUNT
  | PUBKEY_COUNT
  | VERIFY
  | EQUALVERIFY
  | CHECKMULTISIGVERIFY
  | CHECKSIGVERIFY
  | CHECKDATASIGVERIFY
  | NUMEQUALVERIFY
  | BAD_OPCODE
  | DISABLED_OPCODE
  | INVALID_STACK_OPERATION
  | INVALID_ALTSTACK_OPERATION
  | UNBALANCED_CONDITIONAL
  | INVALID_SPLIT_RANGE
  | INVALID_OPERAND_SIZE
  | INVALID_NUMBER_RANGE
  | IMPOSSIBLE_ENCODING
  | DIV_BY_ZERO
  | MOD_BY_ZERO
  | NEGATIVE_LOCKTIME
  | UNSATISFIED_LOCKTIME
  | SIG_HASHTYPE
  | SIG_DER
  | MINIMALDATA
  | SIG_PUSHONLY
  | SIG_HIGH_S
  | SIG_NULLDUMMY
  | PUBKEYTYPE
  | CLEANSTACK
  | SIG_NULLFAIL
  | DISCOURAGE_UPGRADABLE_NOPS
  | OP_CODESEPARATOR
  | SIG_FINDANDDELETE
  deriving DecidableEq

/-- How an evaluation ends without success: with an error of its own, or in a failed
`assert`, which stops the program. -/
inductive Failure where
  | script (serror : ScriptError)
  | assertion
  deriving DecidableEq

abbrev Eval := Except Failure

def setError {α : Type} (serror : ScriptError) : Eval α :=
  .error (.script serror)

def assert (condition : Bool) : Eval Unit :=
  if condition then .ok () else .error .assertion

/-- `CastToBool`: any byte that is not zero makes a string true, except a sign bit in its
last byte. -/
def castToBool : Valtype -> Bool
  | [] => false
  | [last] => decide (last ≠ 0) && decide (last ≠ 0x80)
  | byte :: rest => decide (byte ≠ 0) || castToBool rest

def vchFalse : Valtype := []

def vchTrue : Valtype := [1]

/-- The element pushed for a truth value. -/
def ofBool (value : Bool) : Valtype :=
  if value then vchTrue else vchFalse

namespace CScriptNum

def nDefaultMaxNumSize : Nat := 4

def INT64_MIN : Int := -9223372036854775808
def INT64_MAX : Int := 9223372036854775807
def INT_MIN : Int := -2147483648
def INT_MAX : Int := 2147483647

def signBit (byte : UInt8) : Bool :=
  decide (byte &&& 0x80 ≠ 0)

variable (vch : Valtype)

def setVch : Int :=
  match vch.getLast? with
  | none => 0
  | some last =>
    if signBit last then -((ofLittleEndian vch : Int) - 128 * 256 ^ (vch.length - 1))
    else ofLittleEndian vch

def isMinimallyEncoded (nMaxNumSize : Nat := nDefaultMaxNumSize) : Bool :=
  decide (vch.length <= nMaxNumSize) &&
    match vch.reverse with
    | [] => true
    | [last] => decide (last &&& 0x7f ≠ 0)
    | last :: second :: _ => decide (last &&& 0x7f ≠ 0) || signBit second

/-- The constructor of a number from a byte string; a `scriptnum_error` ends the evaluation
with the unknown error. -/
def ofVch (fRequireMinimal : Bool) (nMaxNumSize : Nat := nDefaultMaxNumSize) : Eval Int :=
  if nMaxNumSize < vch.length then setError .UNKNOWN_ERROR
  else if fRequireMinimal && !isMinimallyEncoded vch nMaxNumSize then setError .UNKNOWN_ERROR
  else .ok (setVch vch)

variable (value : Int)

def getint : Int :=
  if INT_MAX < value then INT_MAX else if value < INT_MIN then INT_MIN else value

/-- The bytes of an absolute value, lowest first.  The first argument bounds their number. -/
def magnitude : Nat -> Nat -> Valtype
  | 0, _ => []
  | count + 1, absvalue =>
    if absvalue = 0 then [] else UInt8.ofNat absvalue :: magnitude count (absvalue / 256)

/-- The sign is put into the highest bit of the last byte, or into a byte of its own. -/
def withSign (neg : Bool) (bytes : Valtype) : Valtype :=
  match bytes.reverse with
  | [] => []
  | last :: lower =>
    if signBit last then bytes ++ [if neg then 0x80 else 0]
    else if neg then ((last ||| 0x80) :: lower).reverse
    else bytes

/-- `CScriptNum::serialize`, for numbers of `int64_t`: their absolute values have at most
eight bytes. -/
def serialize : Valtype :=
  if value = 0 then [] else withSign (decide (value < 0)) (magnitude 8 value.natAbs)

def getvch : Valtype :=
  serialize value

/-- The loop of `MinimallyEncode` over the bytes below the last one, highest first. -/
def trim (last : UInt8) : List UInt8 -> Valtype
  | [] => []
  | byte :: lower =>
    if byte ≠ 0 then
      if signBit byte then (last :: byte :: lower).reverse else ((byte ||| last) :: lower).reverse
    else trim last lower

/-- `CScriptNum::MinimallyEncode`: the new string, and whether it is another one. -/
def minimallyEncode (data : Valtype) : Valtype × Bool :=
  match data.reverse with
  | [] => (data, false)
  | last :: lower =>
    if last &&& 0x7f ≠ 0 then (data, false)
    else
      match lower with
      | [] => ([], true)
      | second :: _ => if signBit second then (data, false) else (trim last lower, true)

/-- `operator+=`, with its guard. -/
def addAssign (value rhs : Int) : Eval Int := do
  assert (decide (rhs = 0) || (decide (0 < rhs) && decide (value <= INT64_MAX - rhs)) ||
    (decide (rhs < 0) && decide (INT64_MIN - rhs <= value)))
  pure (value + rhs)

/-- `operator-=`, with its guard. -/
def subAssign (value rhs : Int) : Eval Int := do
  assert (decide (rhs = 0) || (decide (0 < rhs) && decide (INT64_MIN + rhs <= value)) ||
    (decide (rhs < 0) && decide (value <= INT64_MAX + rhs)))
  pure (value - rhs)

/-- `operator-`, with its guard. -/
def negate : Eval Int := do
  assert (decide (value ≠ INT64_MIN))
  pure (-value)

end CScriptNum
end StakeCubeCoin.Script
