import StakeCubeCoin.Script.Script

namespace StakeCubeCoin.Script

open Primitives CScriptNum

/-!
# The script interpreter

`EvalScript` and `VerifyScript` of `script/interpreter.cpp`.  The stack is a list whose head
is its top.  The checker of signatures and lock times is a parameter, as it is in the
source, and so are the hash functions and the elliptic curve.  All scripts are evaluated
with `SigVersion::BASE`, the only version there is.
-/

def MAX_SCRIPT_ELEMENT_SIZE : Nat := 520
def MAX_OPS_PER_SCRIPT : Nat := 201
def MAX_PUBKEYS_PER_MULTISIG : Nat := 20
def MAX_STACK_SIZE : Nat := 1000

inductive Flag where
  | P2SH
  | STRICTENC
  | DERSIG
  | LOW_S
  | NULLDUMMY
  | SIGPUSHONLY
  | MINIMALDATA
  | DISCOURAGE_UPGRADABLE_NOPS
  | CLEANSTACK
  | CHECKLOCKTIMEVERIFY
  | CHECKSEQUENCEVERIFY
  | NULLFAIL
  | DIP0020_OPCODES
  | CONST_SCRIPTCODE
  deriving DecidableEq

abbrev Flags := Flag -> Bool

/-- The hash functions, and what is asked of the elliptic curve library.  `verify` takes a
public key, a hash and a signature. -/
structure Crypto where
  hash : HashOp -> Valtype -> Valtype
  length_hash : ∀ op data, (hash op data).length = op.size
  checkLowS : Valtype -> Bool
  verify : Valtype -> Valtype -> Valtype -> Bool

structure BaseSignatureChecker where
  checkSig : Valtype -> Valtype -> CScript -> Bool
  checkLockTime : Int -> Bool
  checkSequence : Int -> Bool

/-! ## Encodings of signatures and keys -/

def pubKeyLength (header : UInt8) : Nat :=
  if header = 2 \/ header = 3 then 33
  else if header = 4 \/ header = 6 \/ header = 7 then 65
  else 0

/-- `CPubKey::IsValid` of a key set from a vector. -/
def isValidPubKey : Valtype -> Bool
  | [] => false
  | header :: rest => decide (pubKeyLength header ≠ 0) &&
    decide (pubKeyLength header = rest.length + 1)

def isCompressedOrUncompressedPubKey (vchPubKey : Valtype) : Bool :=
  if vchPubKey.length < 33 then false
  else if vchPubKey[0]? = some 0x04 then decide (vchPubKey.length = 65)
  else if vchPubKey[0]? = some 0x02 \/ vchPubKey[0]? = some 0x03 then decide (vchPubKey.length = 33)
  else false

/-- `IsValidSignatureEncoding`.  The comparisons of lengths precede every access behind
them. -/
def isValidSignatureEncoding (sig : Valtype) : Bool :=
  let at_ (i : Nat) : UInt8 := sig.getD i 0
  let lenR := (at_ 3).toNat
  let lenS := (at_ (5 + lenR)).toNat
  decide (9 <= sig.length) && decide (sig.length <= 73) &&
    decide (at_ 0 = 0x30) && decide ((at_ 1).toNat = sig.length - 3) &&
    decide (5 + lenR < sig.length) && decide (lenR + lenS + 7 = sig.length) &&
    decide (at_ 2 = 0x02) && decide (lenR ≠ 0) && decide (at_ 4 &&& 0x80 = 0) &&
    !(decide (1 < lenR) && decide (at_ 4 = 0x00) && decide (at_ 5 &&& 0x80 = 0)) &&
    decide (at_ (lenR + 4) = 0x02) && decide (lenS ≠ 0) && decide (at_ (lenR + 6) &&& 0x80 = 0) &&
    !(decide (1 < lenS) && decide (at_ (lenR + 6) = 0x00) && decide (at_ (lenR + 7) &&& 0x80 = 0))

def isDefinedHashtypeSignature (vchSig : Valtype) : Bool :=
  match vchSig.getLast? with
  | none => false
  | some last => decide (1 <= last &&& 0x7f) && decide (last &&& 0x7f <= 3)

section

variable (crypto : Crypto) (flags : Flags)

def isLowDERSignature (vchSig : Valtype) : Eval Unit :=
  if !isValidSignatureEncoding vchSig then setError .SIG_DER
  else if !crypto.checkLowS vchSig.dropLast then setError .SIG_HIGH_S
  else .ok ()

def checkSignatureEncoding (vchSig : Valtype) : Eval Unit :=
  if vchSig = [] then .ok ()
  else if (flags .DERSIG || flags .LOW_S || flags .STRICTENC) &&
    !isValidSignatureEncoding vchSig then
    setError .SIG_DER
  else do
    if flags .LOW_S then isLowDERSignature crypto vchSig
    if flags .STRICTENC && !isDefinedHashtypeSignature vchSig then setError .SIG_HASHTYPE

def checkPubKeyEncoding (vchPubKey : Valtype) : Eval Unit :=
  if flags .STRICTENC && !isCompressedOrUncompressedPubKey vchPubKey then setError .PUBKEYTYPE
  else .ok ()

end

def checkMinimalPush (data : Valtype) (opcode : UInt8) : Eval Bool := do
  assert (decide (opcode <= OP_PUSHDATA4))
  pure <|
    match data with
    | [] => decide (opcode = OP_0)
    | [byte] =>
      if 1 <= byte /\ byte <= 16 then false
      else if byte = 0x81 then false
      else decide (opcode.toNat = 1)
    | _ :: _ :: _ =>
      if data.length <= 75 then decide (opcode.toNat = data.length)
      else if data.length <= 255 then decide (opcode = OP_PUSHDATA1)
      else if data.length <= 65535 then decide (opcode = OP_PUSHDATA2)
      else true

/-! ## Deleting a signature from the script code -/

/-- Drop every copy of `b` at the front.  The first argument bounds their number. -/
def dropCopies (b : CScript) : Nat -> CScript -> CScript × Nat
  | 0, pc => (pc, 0)
  | rounds + 1, pc =>
    if b.isPrefixOf pc then
      let (rest, nFound) := dropCopies b rounds (pc.drop b.length)
      (rest, nFound + 1)
    else (pc, 0)

/-- The loop of `FindAndDelete`: what is kept of the script, and the number of copies that
were dropped. -/
def findAndDeleteFrom (b : CScript) : Nat -> CScript -> CScript × Nat
  | 0, pc => (pc, 0)
  | rounds + 1, pc =>
    let (pc2, nFound) := dropCopies b pc.length pc
    match getScriptOp pc2 with
    | (none, _) => (pc2, nFound)
    | (some _, next) =>
      let (rest, later) := findAndDeleteFrom b rounds next
      (pc2.take (pc2.length - next.length) ++ rest, nFound + later)

/-- `FindAndDelete`: the new script and the number of copies found. -/
def findAndDelete (script b : CScript) : CScript × Nat :=
  if b = [] then (script, 0) else findAndDeleteFrom b (script.length + 1) script

/-- The variables of `EvalScript`. -/
structure EvalState where
  /-- Head first is top first. -/
  stack : List Valtype
  altstack : List Valtype := []
  /-- The innermost condition first. -/
  vfExec : List Bool := []
  nOpCount : Nat := 0
  /-- From the last executed code separator to the end. -/
  pbegincodehash : CScript
  deriving DecidableEq

/-- The end of an operation with a truth value as its result; `VERIFY` takes it off again or
fails. -/
def pushResult (verify : Bool) (serror : ScriptError) (value : Bool) (rest : List Valtype) :
    Eval (List Valtype) :=
  if verify then if value then .ok rest else setError serror
  else .ok (ofBool value :: rest)

def bitwise : BitOp -> UInt8 -> UInt8 -> UInt8
  | .OP_AND => (· &&& ·)
  | .OP_OR => (· ||| ·)
  | .OP_XOR => (· ^^^ ·)

def numOfBool (value : Bool) : Int :=
  if value then 1 else 0

def evalUnary (op : UnaryOp) (bn : Int) : Eval Int :=
  match op with
  | .OP_1ADD => addAssign bn 1
  | .OP_1SUB => subAssign bn 1
  | .OP_NEGATE => negate bn
  | .OP_ABS => if bn < 0 then negate bn else .ok bn
  | .OP_NOT => .ok (numOfBool (decide (bn = 0)))
  | .OP_0NOTEQUAL => .ok (numOfBool (decide (bn ≠ 0)))

/-- Division and remainder truncate, as those of C++ do. -/
def evalBinary (op : BinaryOp) (bn1 bn2 : Int) : Eval Int :=
  match op with
  | .OP_ADD => .ok (bn1 + bn2)
  | .OP_SUB => .ok (bn1 - bn2)
  | .OP_DIV => if bn2 = 0 then setError .DIV_BY_ZERO else .ok (bn1.tdiv bn2)
  | .OP_MOD => if bn2 = 0 then setError .MOD_BY_ZERO else .ok (bn1.tmod bn2)
  | .OP_BOOLAND => .ok (numOfBool (decide (bn1 ≠ 0) && decide (bn2 ≠ 0)))
  | .OP_BOOLOR => .ok (numOfBool (decide (bn1 ≠ 0) || decide (bn2 ≠ 0)))
  | .OP_NUMEQUAL => .ok (numOfBool (decide (bn1 = bn2)))
  | .OP_NUMEQUALVERIFY => .ok (numOfBool (decide (bn1 = bn2)))
  | .OP_NUMNOTEQUAL => .ok (numOfBool (decide (bn1 ≠ bn2)))
  | .OP_LESSTHAN => .ok (numOfBool (decide (bn1 < bn2)))
  | .OP_GREATERTHAN => .ok (numOfBool (decide (bn2 < bn1)))
  | .OP_LESSTHANOREQUAL => .ok (numOfBool (decide (bn1 <= bn2)))
  | .OP_GREATERTHANOREQUAL => .ok (numOfBool (decide (bn2 <= bn1)))
  | .OP_MIN => .ok (if bn1 < bn2 then bn1 else bn2)
  | .OP_MAX => .ok (if bn2 < bn1 then bn1 else bn2)

variable (crypto : Crypto) (flags : Flags) (checker : BaseSignatureChecker)

def fRequireMinimal : Bool :=
  flags .MINIMALDATA

def operand (vch : Valtype) : Eval Int :=
  ofVch vch (fRequireMinimal flags)

variable (stack : List Valtype)

def checkLockTimeVerify : Eval Unit :=
  if !flags .CHECKLOCKTIMEVERIFY then .ok ()
  else
    match stack with
    | [] => setError .INVALID_STACK_OPERATION
    | top :: _ => do
      let nLockTime <- ofVch top (fRequireMinimal flags) 5
      if nLockTime < 0 then setError .NEGATIVE_LOCKTIME
      else if !checker.checkLockTime nLockTime then setError .UNSATISFIED_LOCKTIME
      else .ok ()

def SEQUENCE_LOCKTIME_DISABLE_FLAG : Nat := 2147483648

def checkSequenceVerify : Eval Unit :=
  if !flags .CHECKSEQUENCEVERIFY then .ok ()
  else
    match stack with
    | [] => setError .INVALID_STACK_OPERATION
    | top :: _ => do
      let nSequence <- ofVch top (fRequireMinimal flags) 5
      if nSequence < 0 then setError .NEGATIVE_LOCKTIME
      else if nSequence.toNat &&& SEQUENCE_LOCKTIME_DISABLE_FLAG ≠ 0 then .ok ()
      else if !checker.checkSequence nSequence then setError .UNSATISFIED_LOCKTIME
      else .ok ()

/-- The script code without a signature; finding it can be an error. -/
def deleteSignature (scriptCode : CScript) (vchSig : Valtype) : Eval CScript :=
  let (remaining, found) := findAndDelete scriptCode (pushVector vchSig)
  if 0 < found && flags .CONST_SCRIPTCODE then setError .SIG_FINDANDDELETE else .ok remaining

/-- `OP_CHECKSIG`: whether the signature is good. -/
def evalCheckSig (pbegincodehash : CScript) (vchSig vchPubKey : Valtype) : Eval Bool := do
  let scriptCode <- deleteSignature flags pbegincodehash vchSig
  checkSignatureEncoding crypto flags vchSig
  checkPubKeyEncoding flags vchPubKey
  let fSuccess := checker.checkSig vchSig vchPubKey scriptCode
  if !fSuccess && flags .NULLFAIL && decide (vchSig ≠ []) then setError .SIG_NULLFAIL
  else .ok fSuccess

/-- `OP_CHECKDATASIG`: whether the signature of the message is good. -/
def evalCheckDataSig (vchSig vchMessage vchPubKey : Valtype) : Eval Bool := do
  checkSignatureEncoding crypto flags vchSig
  checkPubKeyEncoding flags vchPubKey
  let fSuccess := decide (vchSig ≠ []) && isValidPubKey vchPubKey &&
    crypto.verify vchPubKey (crypto.hash .OP_SHA256 vchMessage) vchSig
  if !fSuccess && flags .NULLFAIL && decide (vchSig ≠ []) then setError .SIG_NULLFAIL
  else .ok fSuccess

/-- The loop of `OP_CHECKMULTISIG` over the signatures and keys that are left, top first. -/
def matchSignatures (scriptCode : CScript) : List Valtype -> List Valtype -> Eval Bool
  | [], _ => .ok true
  | _ :: _, [] => .ok false
  | vchSig :: sigs, vchPubKey :: keys => do
    checkSignatureEncoding crypto flags vchSig
    checkPubKeyEncoding flags vchPubKey
    let left := if checker.checkSig vchSig vchPubKey scriptCode then sigs else vchSig :: sigs
    if keys.length < left.length then .ok false else matchSignatures scriptCode left keys

/-- `OP_CHECKMULTISIG`.  The stack holds, from the top, the number of keys, the keys, the number of
signatures, the signatures, and one element more. -/
def evalCheckMultiSig (verify : Bool) (state : EvalState) : Eval EvalState :=
  match state.stack with
  | [] => setError .INVALID_STACK_OPERATION
  | keysCount :: below => do
    let nKeysCount := getint (<- operand flags keysCount)
    if nKeysCount < 0 \/ (MAX_PUBKEYS_PER_MULTISIG : Int) < nKeysCount then setError .PUBKEY_COUNT
    else
      let nKeys := nKeysCount.toNat
      let nOpCount := state.nOpCount + nKeys
      if MAX_OPS_PER_SCRIPT < nOpCount then setError .OP_COUNT
      else
        match below.drop nKeys with
        | [] => setError .INVALID_STACK_OPERATION
        | sigsCount :: lower => do
          let nSigsCount := getint (<- operand flags sigsCount)
          if nSigsCount < 0 \/ nKeysCount < nSigsCount then setError .SIG_COUNT
          else
            let nSigs := nSigsCount.toNat
            match lower.drop nSigs with
            | [] => setError .INVALID_STACK_OPERATION
            | dummy :: rest => do
              let sigs := lower.take nSigs
              let scriptCode <- sigs.foldlM (deleteSignature flags) state.pbegincodehash
              let fSuccess <- matchSignatures crypto flags checker scriptCode sigs (below.take nKeys)
              if !fSuccess && flags .NULLFAIL && sigs.any (fun vchSig => decide (vchSig ≠ [])) then
                setError .SIG_NULLFAIL
              else if flags .NULLDUMMY && decide (dummy ≠ []) then setError .SIG_NULLDUMMY
              else
                let stack <- pushResult verify .CHECKMULTISIGVERIFY fSuccess rest
                pure { state with stack, nOpCount }

/-- `OP_PICK` and `OP_ROLL`, without the position itself. -/
def evalPick (roll : Bool) (n : Int) (stack : List Valtype) : Eval (List Valtype) :=
  if n < 0 then setError .INVALID_STACK_OPERATION
  else
    match stack[n.toNat]? with
    | none => setError .INVALID_STACK_OPERATION
    | some vch => .ok (vch :: if roll then stack.eraseIdx n.toNat else stack)

/-- `OP_NUM2BIN`: the minimal form of a number, with the sign moved to a byte further up. -/
def evalNum2Bin (size : Int) (rawnum : Valtype) : Eval Valtype :=
  if size < 0 \/ (MAX_SCRIPT_ELEMENT_SIZE : Int) < size then setError .PUSH_SIZE
  else
    let minimal := (minimallyEncode rawnum).1
    if size < minimal.length then setError .IMPOSSIBLE_ENCODING
    else if size = minimal.length then .ok minimal
    else
      match minimal.reverse with
      | [] => .ok (List.replicate (size.toNat - 1) 0 ++ [0])
      | last :: lower =>
        .ok (((last &&& 0x7f) :: lower).reverse ++
          List.replicate (size.toNat - 1 - minimal.length) 0 ++ [last &&& 0x80])

/-- The stack operations of the `switch`: those that change neither the conditions nor the
script code nor the count of operations. -/
def evalStackOp (pbegincodehash : CScript) : Opcode -> List Valtype -> Eval (List Valtype)
  | .OP_N n, stack => .ok (getvch n :: stack)
  | .OP_NOP, stack => .ok stack
  | .OP_CHECKLOCKTIMEVERIFY, stack => do
    checkLockTimeVerify flags checker stack
    pure stack
  | .OP_CHECKSEQUENCEVERIFY, stack => do
    checkSequenceVerify flags checker stack
    pure stack
  | .OP_NOPN, stack =>
    if flags .DISCOURAGE_UPGRADABLE_NOPS then setError .DISCOURAGE_UPGRADABLE_NOPS else .ok stack
  | .OP_VERIFY, top :: rest => if castToBool top then .ok rest else setError .VERIFY
  | .OP_RETURN, _ => setError .OP_RETURN
  | .OP_2DROP, _ :: _ :: rest => .ok rest
  | .OP_2DUP, vch2 :: vch1 :: rest => .ok (vch2 :: vch1 :: vch2 :: vch1 :: rest)
  | .OP_3DUP, vch3 :: vch2 :: vch1 :: rest =>
    .ok (vch3 :: vch2 :: vch1 :: vch3 :: vch2 :: vch1 :: rest)
  | .OP_2OVER, x4 :: x3 :: vch2 :: vch1 :: rest =>
    .ok (vch2 :: vch1 :: x4 :: x3 :: vch2 :: vch1 :: rest)
  | .OP_2ROT, x6 :: x5 :: x4 :: x3 :: vch2 :: vch1 :: rest =>
    .ok (vch2 :: vch1 :: x6 :: x5 :: x4 :: x3 :: rest)
  | .OP_2SWAP, x4 :: x3 :: x2 :: x1 :: rest => .ok (x2 :: x1 :: x4 :: x3 :: rest)
  | .OP_IFDUP, vch :: rest => .ok (if castToBool vch then vch :: vch :: rest else vch :: rest)
  | .OP_DEPTH, stack => .ok (getvch stack.length :: stack)
  | .OP_DROP, _ :: rest => .ok rest
  | .OP_DUP, vch :: rest => .ok (vch :: vch :: rest)
  | .OP_NIP, x2 :: _ :: rest => .ok (x2 :: rest)
  | .OP_OVER, x2 :: vch :: rest => .ok (vch :: x2 :: vch :: rest)
  | .OP_PICK roll, top :: x1 :: rest => do
    let n <- operand flags top
    evalPick roll (getint n) (x1 :: rest)
  | .OP_ROT, x3 :: x2 :: x1 :: rest => .ok (x1 :: x3 :: x2 :: rest)
  | .OP_SWAP, x2 :: x1 :: rest => .ok (x1 :: x2 :: rest)
  | .OP_TUCK, x2 :: x1 :: rest => .ok (x2 :: x1 :: x2 :: rest)
  | .OP_SIZE, top :: rest => .ok (getvch top.length :: top :: rest)
  | .OP_EQUAL verify, vch2 :: vch1 :: rest =>
    pushResult verify .EQUALVERIFY (decide (vch1 = vch2)) rest
  | .bit op, vch2 :: vch1 :: rest =>
    if vch1.length ≠ vch2.length then setError .INVALID_OPERAND_SIZE
    else .ok (List.zipWith (bitwise op) vch1 vch2 :: rest)
  | .unary op, top :: rest => do
    let bn <- operand flags top
    let result <- evalUnary op bn
    pure (getvch result :: rest)
  | .binary op, vch2 :: vch1 :: rest => do
    let bn1 <- operand flags vch1
    let bn2 <- operand flags vch2
    let result := getvch (<- evalBinary op bn1 bn2)
    if op = .OP_NUMEQUALVERIFY then
      if castToBool result then .ok rest else setError .NUMEQUALVERIFY
    else .ok (result :: rest)
  | .OP_WITHIN, vch3 :: vch2 :: vch1 :: rest => do
    let bn1 <- operand flags vch1
    let bn2 <- operand flags vch2
    let bn3 <- operand flags vch3
    pure (ofBool (decide (bn2 <= bn1) && decide (bn1 < bn3)) :: rest)
  | .hash op, vch :: rest => .ok (crypto.hash op vch :: rest)
  | .OP_CHECKSIG verify, vchPubKey :: vchSig :: rest => do
    let fSuccess <- evalCheckSig crypto flags checker pbegincodehash vchSig vchPubKey
    pushResult verify .CHECKSIGVERIFY fSuccess rest
  | .OP_CHECKDATASIG verify, vchPubKey :: vchMessage :: vchSig :: rest => do
    let fSuccess <- evalCheckDataSig crypto flags vchSig vchMessage vchPubKey
    pushResult verify .CHECKDATASIGVERIFY fSuccess rest
  | .OP_CAT, vch2 :: vch1 :: rest =>
    if MAX_SCRIPT_ELEMENT_SIZE < vch1.length + vch2.length then setError .PUSH_SIZE
    else .ok ((vch1 ++ vch2) :: rest)
  | .OP_SPLIT, position :: vch :: rest => do
    let nPosition := getint (<- operand flags position)
    if nPosition < 0 \/ (vch.length : Int) < nPosition then setError .INVALID_SPLIT_RANGE
    else .ok (vch.drop nPosition.toNat :: vch.take nPosition.toNat :: rest)
  | .OP_NUM2BIN, size :: rawnum :: rest => do
    let size <- operand flags size
    let padded <- evalNum2Bin (getint size) rawnum
    pure (padded :: rest)
  | .OP_BIN2NUM, n :: rest =>
    let minimal := (minimallyEncode n).1
    if isMinimallyEncoded minimal then .ok (minimal :: rest) else setError .INVALID_NUMBER_RANGE
  | .disabled, _ => setError .DISABLED_OPCODE
  | .bad, _ => setError .BAD_OPCODE
  | .OP_PUSHDATA, _ => setError .BAD_OPCODE
  | _, _ => setError .INVALID_STACK_OPERATION

/-- The `switch`.  `fExec` is whether all conditions around hold; `pc` is what follows the
operation. -/
def evalOp (fExec : Bool) (pc : CScript) (opcode : Opcode) (state : EvalState) : Eval EvalState :=
  match opcode with
  | .OP_IF negated =>
    if fExec then
      match state.stack with
      | [] => setError .UNBALANCED_CONDITIONAL
      | vch :: rest => .ok { state with stack := rest, vfExec := (castToBool vch ^^ negated) :: state.vfExec }
    else .ok { state with vfExec := false :: state.vfExec }
  | .OP_ELSE =>
    match state.vfExec with
    | [] => setError .UNBALANCED_CONDITIONAL
    | fValue :: outer => .ok { state with vfExec := (!fValue) :: outer }
  | .OP_ENDIF =>
    match state.vfExec with
    | [] => setError .UNBALANCED_CONDITIONAL
    | _ :: outer => .ok { state with vfExec := outer }
  | .OP_TOALTSTACK =>
    match state.stack with
    | [] => setError .INVALID_STACK_OPERATION
    | top :: rest => .ok { state with stack := rest, altstack := top :: state.altstack }
  | .OP_FROMALTSTACK =>
    match state.altstack with
    | [] => setError .INVALID_ALTSTACK_OPERATION
    | top :: rest => .ok { state with stack := top :: state.stack, altstack := rest }
  | .OP_CODESEPARATOR => .ok { state with pbegincodehash := pc }
  | .OP_CHECKMULTISIG verify => evalCheckMultiSig crypto flags checker verify state
  | opcode => do
    let stack <- evalStackOp crypto flags checker state.pbegincodehash opcode state.stack
    pure { state with stack }

def isDIP0020Opcode : Opcode -> Bool
  | .OP_CAT | .OP_SPLIT | .bit _ | .binary .OP_DIV | .binary .OP_MOD | .OP_NUM2BIN | .OP_BIN2NUM
  | .OP_CHECKDATASIG _ => true
  | _ => false

variable (byte : UInt8) (vchPushValue : Valtype)

/-- What is checked of an operation whether or not it is executed, and the count of
operations after it. -/
def checkOp (nOpCount : Nat) : Eval Nat :=
  let counted := if OP_16 < byte then nOpCount + 1 else nOpCount
  if MAX_SCRIPT_ELEMENT_SIZE < vchPushValue.length then setError .PUSH_SIZE
  else if OP_16 < byte /\ MAX_OPS_PER_SCRIPT < counted then setError .OP_COUNT
  else if !flags .DIP0020_OPCODES && isDIP0020Opcode (opcodeOf byte) then setError .DISABLED_OPCODE
  else if opcodeOf byte = .disabled then setError .DISABLED_OPCODE
  else if opcodeOf byte = .OP_CODESEPARATOR /\ flags .CONST_SCRIPTCODE = true then
    setError .OP_CODESEPARATOR
  else .ok counted

/-- A push that is executed. -/
def evalPush (state : EvalState) : Eval EvalState := do
  let minimal <- if fRequireMinimal flags then checkMinimalPush vchPushValue byte else pure true
  if minimal then .ok { state with stack := vchPushValue :: state.stack } else setError .MINIMALDATA

/-- The part of a round between the checks of the operation and that of the stack. -/
def evalChecked (pc : CScript) (state : EvalState) : Eval EvalState :=
  let fExec := !state.vfExec.contains false
  if fExec && decide (byte <= OP_PUSHDATA4) then evalPush flags byte vchPushValue state
  else if fExec || (decide (OP_IF <= byte) && decide (byte <= OP_ENDIF)) then
    evalOp crypto flags checker fExec pc (opcodeOf byte) state
  else .ok state

/-- The end of a round. -/
def checkStackSize (state : EvalState) : Eval EvalState :=
  if MAX_STACK_SIZE < state.stack.length + state.altstack.length then setError .STACK_SIZE
  else .ok state

/-- One round of the loop of `EvalScript`: the state and the script that is left. -/
def evalStep (pc : CScript) (state : EvalState) : Eval (EvalState × CScript) :=
  match getScriptOp pc with
  | (none, _) => setError .BAD_OPCODE
  | (some (byte, vchPushValue), next) => do
    let nOpCount <- checkOp flags byte vchPushValue state.nOpCount
    let executed <- evalChecked crypto flags checker byte vchPushValue next { state with nOpCount }
    let kept <- checkStackSize executed
    pure (kept, next)

/-- The loop of `EvalScript`.  The first argument bounds the number of rounds; every round
reads at least one byte. -/
def evalLoop : Nat -> CScript -> EvalState -> Eval EvalState
  | _, [], state => .ok state
  | 0, _ :: _, _ => setError .UNKNOWN_ERROR
  | rounds + 1, byte :: rest, state => do
    let (state, pc) <- evalStep crypto flags checker (byte :: rest) state
    evalLoop rounds pc state

/-- `EvalScript`: the stack it leaves. -/
def evalScript (script : CScript) : Eval (List Valtype) :=
  if MAX_SCRIPT_SIZE < script.length then setError .SCRIPT_SIZE
  else do
    let state <- evalLoop crypto flags checker script.length script { stack, pbegincodehash := script }
    if state.vfExec = [] then .ok state.stack else setError .UNBALANCED_CONDITIONAL

def checkTop : Eval Unit :=
  match stack with
  | [] => setError .EVAL_FALSE
  | top :: _ => if castToBool top then .ok () else setError .EVAL_FALSE

/-- The additional validation of pay-to-script-hash: the script on top of the stack that
the signature script has left is evaluated on the rest. -/
def evalRedeemScript (scriptSig : CScript) (stackCopy : List Valtype) : Eval (List Valtype) :=
  if !isPushOnly scriptSig then setError .SIG_PUSHONLY
  else
    match stackCopy with
    | [] => .error .assertion
    | pubKeySerialized :: rest => do
      let stack <- evalScript crypto flags checker rest pubKeySerialized
      checkTop stack
      pure stack

def checkCleanStack : Eval Unit :=
  if flags .CLEANSTACK then do
    assert (flags .P2SH)
    if stack.length ≠ 1 then setError .CLEANSTACK else .ok ()
  else .ok ()

def verifyScript (scriptSig scriptPubKey : CScript) : Eval Unit :=
  if flags .SIGPUSHONLY && !isPushOnly scriptSig then setError .SIG_PUSHONLY
  else do
    let stackCopy <- evalScript crypto flags checker [] scriptSig
    let stack <- evalScript crypto flags checker stackCopy scriptPubKey
    checkTop stack
    let last <-
      if flags .P2SH && CScript.isPayToScriptHash scriptPubKey then
        evalRedeemScript crypto flags checker scriptSig stackCopy
      else pure stack
    checkCleanStack flags last

end StakeCubeCoin.Script
