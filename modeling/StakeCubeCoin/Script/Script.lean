import StakeCubeCoin.Script.ScriptNum

namespace StakeCubeCoin.Script

open Library Primitives

/-!
# Scripts as sequences of operations

`opcodetype` and `CScript` of `script/script.{h,cpp}`: the opcodes, reading the next one
together with the bytes it pushes, and writing pushes.
-/

def OP_0 : UInt8 := 0x00
def OP_PUSHDATA1 : UInt8 := 0x4c
def OP_PUSHDATA2 : UInt8 := 0x4d
def OP_PUSHDATA4 : UInt8 := 0x4e
def OP_1 : UInt8 := 0x51
def OP_16 : UInt8 := 0x60
def OP_IF : UInt8 := 0x63
def OP_ENDIF : UInt8 := 0x68

inductive BitOp where
  | OP_AND | OP_OR | OP_XOR
  deriving DecidableEq

/-- The opcodes with one number as operand. -/
inductive UnaryOp where
  | OP_1ADD | OP_1SUB | OP_NEGATE | OP_ABS | OP_NOT | OP_0NOTEQUAL
  deriving DecidableEq

/-- The opcodes with two numbers as operands. -/
inductive BinaryOp where
  | OP_ADD | OP_SUB | OP_DIV | OP_MOD | OP_BOOLAND | OP_BOOLOR | OP_NUMEQUAL | OP_NUMEQUALVERIFY
  | OP_NUMNOTEQUAL | OP_LESSTHAN | OP_GREATERTHAN | OP_LESSTHANOREQUAL | OP_GREATERTHANOREQUAL
  | OP_MIN | OP_MAX
  deriving DecidableEq

inductive HashOp where
  | OP_RIPEMD160 | OP_SHA1 | OP_SHA256 | OP_HASH160 | OP_HASH256
  deriving DecidableEq

def HashOp.size : HashOp -> Nat
  | .OP_RIPEMD160 | .OP_SHA1 | .OP_HASH160 => 20
  | .OP_SHA256 | .OP_HASH256 => 32

/-- The cases of the interpreter's `switch`.  Opcodes that share a body are one constructor with the
difference as its argument: a number, whether a condition is negated, whether `OP_ROLL` removes what
it copies, whether the operation ends in `VERIFY`. -/
inductive Opcode where
  | OP_PUSHDATA
  | OP_N (n : Int)
  | OP_NOP
  | OP_CHECKLOCKTIMEVERIFY
  | OP_CHECKSEQUENCEVERIFY
  | OP_NOPN
  | OP_IF (negated : Bool)
  | OP_ELSE
  | OP_ENDIF
  | OP_VERIFY
  | OP_RETURN
  | OP_TOALTSTACK
  | OP_FROMALTSTACK
  | OP_2DROP
  | OP_2DUP
  | OP_3DUP
  | OP_2OVER
  | OP_2ROT
  | OP_2SWAP
  | OP_IFDUP
  | OP_DEPTH
  | OP_DROP
  | OP_DUP
  | OP_NIP
  | OP_OVER
  | OP_PICK (roll : Bool)
  | OP_ROT
  | OP_SWAP
  | OP_TUCK
  | OP_SIZE
  | OP_EQUAL (verify : Bool)
  | bit (op : BitOp)
  | unary (op : UnaryOp)
  | binary (op : BinaryOp)
  | OP_WITHIN
  | hash (op : HashOp)
  | OP_CODESEPARATOR
  | OP_CHECKSIG (verify : Bool)
  | OP_CHECKDATASIG (verify : Bool)
  | OP_CHECKMULTISIG (verify : Bool)
  | OP_CAT
  | OP_SPLIT
  | OP_NUM2BIN
  | OP_BIN2NUM
  | disabled
  | bad
  deriving DecidableEq

/-- The opcodes above `OP_16`. -/
def opcodeTable : List (UInt8 × Opcode) :=
  [(0x61, .OP_NOP), (0x63, .OP_IF false), (0x64, .OP_IF true), (0x67, .OP_ELSE), (0x68, .OP_ENDIF),
    (0x69, .OP_VERIFY), (0x6a, .OP_RETURN),
    (0x6b, .OP_TOALTSTACK), (0x6c, .OP_FROMALTSTACK), (0x6d, .OP_2DROP), (0x6e, .OP_2DUP),
    (0x6f, .OP_3DUP), (0x70, .OP_2OVER), (0x71, .OP_2ROT), (0x72, .OP_2SWAP), (0x73, .OP_IFDUP),
    (0x74, .OP_DEPTH), (0x75, .OP_DROP), (0x76, .OP_DUP), (0x77, .OP_NIP), (0x78, .OP_OVER),
    (0x79, .OP_PICK false), (0x7a, .OP_PICK true), (0x7b, .OP_ROT), (0x7c, .OP_SWAP), (0x7d, .OP_TUCK),
    (0x7e, .OP_CAT), (0x7f, .OP_SPLIT), (0x80, .OP_NUM2BIN), (0x81, .OP_BIN2NUM), (0x82, .OP_SIZE),
    (0x83, .disabled), (0x84, .bit .OP_AND), (0x85, .bit .OP_OR), (0x86, .bit .OP_XOR),
    (0x87, .OP_EQUAL false), (0x88, .OP_EQUAL true),
    (0x8b, .unary .OP_1ADD), (0x8c, .unary .OP_1SUB), (0x8d, .disabled), (0x8e, .disabled),
    (0x8f, .unary .OP_NEGATE), (0x90, .unary .OP_ABS), (0x91, .unary .OP_NOT),
    (0x92, .unary .OP_0NOTEQUAL), (0x93, .binary .OP_ADD), (0x94, .binary .OP_SUB), (0x95, .disabled),
    (0x96, .binary .OP_DIV), (0x97, .binary .OP_MOD), (0x98, .disabled), (0x99, .disabled),
    (0x9a, .binary .OP_BOOLAND), (0x9b, .binary .OP_BOOLOR), (0x9c, .binary .OP_NUMEQUAL),
    (0x9d, .binary .OP_NUMEQUALVERIFY), (0x9e, .binary .OP_NUMNOTEQUAL), (0x9f, .binary .OP_LESSTHAN),
    (0xa0, .binary .OP_GREATERTHAN), (0xa1, .binary .OP_LESSTHANOREQUAL),
    (0xa2, .binary .OP_GREATERTHANOREQUAL), (0xa3, .binary .OP_MIN), (0xa4, .binary .OP_MAX),
    (0xa5, .OP_WITHIN), (0xa6, .hash .OP_RIPEMD160), (0xa7, .hash .OP_SHA1), (0xa8, .hash .OP_SHA256),
    (0xa9, .hash .OP_HASH160), (0xaa, .hash .OP_HASH256), (0xab, .OP_CODESEPARATOR),
    (0xac, .OP_CHECKSIG false), (0xad, .OP_CHECKSIG true), (0xae, .OP_CHECKMULTISIG false),
    (0xaf, .OP_CHECKMULTISIG true), (0xb0, .OP_NOPN), (0xb1, .OP_CHECKLOCKTIMEVERIFY),
    (0xb2, .OP_CHECKSEQUENCEVERIFY), (0xb3, .OP_NOPN), (0xb4, .OP_NOPN), (0xb5, .OP_NOPN),
    (0xb6, .OP_NOPN), (0xb7, .OP_NOPN), (0xb8, .OP_NOPN), (0xb9, .OP_NOPN),
    (0xba, .OP_CHECKDATASIG false), (0xbb, .OP_CHECKDATASIG true)]

/-- The case of a byte.  Reserved opcodes, `OP_VER`, `OP_VERIF`, `OP_VERNOTIF` and the bytes without
a name are the default case. -/
def opcodeOf (byte : UInt8) : Opcode :=
  if byte <= OP_PUSHDATA4 then .OP_PUSHDATA
  else if byte = 0x4f then .OP_N (-1)
  else if OP_1 <= byte /\ byte <= OP_16 then .OP_N (byte.toNat - 0x50)
  else (opcodeTable.lookup byte).getD .bad

/-- Number of bytes that hold the size of a push. -/
def sizeBytes (opcode : UInt8) : Nat :=
  if opcode < OP_PUSHDATA1 then 0
  else if opcode = OP_PUSHDATA1 then 1
  else if opcode = OP_PUSHDATA2 then 2
  else 4

/-- The size of a push, from the opcode itself or from the bytes after it. -/
def pushSize (opcode : UInt8) (pc : CScript) : Nat :=
  if opcode < OP_PUSHDATA1 then opcode.toNat else ofLittleEndian (pc.take (sizeBytes opcode))

/-- `GetScriptOp`: the opcode with the bytes it pushes, and where the iterator stands afterwards.  A
push that is cut off leaves it where reading stopped. -/
def getScriptOp : CScript -> Option (UInt8 × Valtype) × CScript
  | [] => (none, [])
  | opcode :: pc =>
    if opcode <= OP_PUSHDATA4 then
      if pc.length < sizeBytes opcode then (none, pc)
      else
        let data := pc.drop (sizeBytes opcode)
        if data.length < pushSize opcode pc then (none, data)
        else (some (opcode, data.take (pushSize opcode pc)), data.drop (pushSize opcode pc))
    else (some (opcode, []), pc)

/-- The loop of `IsPushOnly`.  The first argument bounds the number of operations. -/
def isPushOnlyFrom : Nat -> CScript -> Bool
  | _, [] => true
  | 0, _ :: _ => false
  | rounds + 1, opcode :: rest =>
    match getScriptOp (opcode :: rest) with
    | (none, _) => false
    | (some (read, _), pc) => if OP_16 < read then false else isPushOnlyFrom rounds pc

def isPushOnly (script : CScript) : Bool :=
  isPushOnlyFrom script.length script

/-- The opcode and the size bytes that `CScript::operator<<` writes in front of a vector. -/
def pushHead (size : Nat) : CScript :=
  if size < OP_PUSHDATA1.toNat then [UInt8.ofNat size]
  else if size <= 0xff then [OP_PUSHDATA1, UInt8.ofNat size]
  else if size <= 0xffff then OP_PUSHDATA2 :: littleEndian 2 size
  else OP_PUSHDATA4 :: littleEndian 4 size

/-- `CScript::operator<<` of a byte vector, as a script of its own. -/
def pushVector (b : Valtype) : CScript :=
  pushHead b.length ++ b

theorem getScriptOp_pushVector {b : Valtype} (short : b.length < 76) (rest : CScript) :
    getScriptOp (pushVector b ++ rest) = (some (UInt8.ofNat b.length, b), rest) := by
  have size : (UInt8.ofNat b.length).toNat = b.length := by
    exact Nat.mod_eq_of_lt (by omega)
  have direct : UInt8.ofNat b.length < OP_PUSHDATA1 := by
    rw [UInt8.lt_iff_toNat_lt, size]
    exact short
  have push : UInt8.ofNat b.length <= OP_PUSHDATA4 := by
    rw [UInt8.le_iff_toNat_le, size]
    exact le_trans (le_of_lt short) (by decide)
  have head : pushVector b = UInt8.ofNat b.length :: b := by
    unfold pushVector pushHead
    rw [if_pos (show b.length < OP_PUSHDATA1.toNat from short)]
    rfl
  rw [head, List.cons_append, getScriptOp, if_pos push]
  unfold sizeBytes pushSize
  rw [if_pos direct, if_pos direct, size, List.drop_zero, if_neg (Nat.not_lt_zero _)]
  rw [if_neg (by simp), List.take_left, List.drop_left]

end StakeCubeCoin.Script
