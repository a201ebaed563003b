import StakeCubeCoin.Library.Codec
import StakeCubeCoin.Script.Interpreter

namespace StakeCubeCoin.Script

open Library Primitives List

/-!
# Signature hashes

`CTransactionSignatureSerializer`, `SignatureHash` and `GenericTransactionSignatureChecker`
of `script/interpreter.cpp`: the bytes of a transaction which a signature of one of its
inputs commits to.  The signature scripts of the transaction are not among them.
-/

structure CMutableTransaction where
  vin : List CTxIn := []
  vout : List CTxOut := []
  nVersion : BitVec 16 := 2
  nType : BitVec 16 := 0
  nLockTime : Nat := 0
  vExtraPayload : List UInt8 := []
  deriving DecidableEq

/-! ## The bytes that are signed -/

def serializeOutPoint (prevout : COutPoint) : List UInt8 :=
  littleEndian 32 prevout.hash.toNat ++ littleEndian 4 prevout.n

def serializeVector (bytes : List UInt8) : List UInt8 :=
  writeCompactSize bytes.length ++ bytes

def serializeTxOut (out : CTxOut) : List UInt8 :=
  littleEndian 8 (BitVec.ofInt 64 out.nValue).toNat ++ serializeVector out.scriptPubKey

/-- The first pass of `SerializeScriptCode`: the number of code separators. -/
def countCodeSeparators : Nat -> CScript -> Nat
  | 0, _ => 0
  | rounds + 1, it =>
    match getScriptOp it with
    | (none, _) => 0
    | (some (opcode, _), next) => (if opcode = 0xab then 1 else 0) + countCodeSeparators rounds next

/-- The second pass: what lies between the code separators, from `itBegin` to where reading
stops. -/
def writeSegments : Nat -> CScript -> CScript -> List UInt8
  | 0, _, _ => []
  | rounds + 1, itBegin, it =>
    match getScriptOp it with
    | (none, stopped) => itBegin.take (itBegin.length - stopped.length)
    | (some (opcode, _), next) =>
      if opcode = 0xab then
        itBegin.take (itBegin.length - next.length - 1) ++ writeSegments rounds next next
      else writeSegments rounds itBegin next

def serializeScriptCode (scriptCode : CScript) : List UInt8 :=
  writeCompactSize (scriptCode.length - countCodeSeparators (scriptCode.length + 1) scriptCode) ++
    writeSegments (scriptCode.length + 1) scriptCode scriptCode

def SIGHASH_NONE : Nat := 2
def SIGHASH_SINGLE : Nat := 3
def SIGHASH_ANYONECANPAY : Nat := 0x80

variable (nHashType : Nat)

def fAnyoneCanPay : Bool :=
  decide (nHashType &&& SIGHASH_ANYONECANPAY ≠ 0)

def fHashSingle : Bool :=
  decide (nHashType &&& 0x1f = SIGHASH_SINGLE)

def fHashNone : Bool :=
  decide (nHashType &&& 0x1f = SIGHASH_NONE)

/-- What a signature sees of an input: everything but the script. -/
def CTxIn.unsigned (txin : CTxIn) : COutPoint × Nat :=
  (txin.prevout, txin.nSequence)

section

variable (tx : CMutableTransaction) (scriptCode : CScript) (nIn nHashType : Nat)

def inputAt (nInput : Nat) : COutPoint × Nat :=
  (tx.vin.map CTxIn.unsigned).getD nInput (⟨0, COutPoint.NULL_INDEX⟩, 0xffffffff)

def serializeInput (index : Nat) : List UInt8 :=
  let nInput := if fAnyoneCanPay nHashType then nIn else index
  let (prevout, nSequence) := inputAt tx nInput
  serializeOutPoint prevout ++
    (if nInput ≠ nIn then serializeVector [] else serializeScriptCode scriptCode) ++
    (if nInput ≠ nIn /\ (fHashSingle nHashType || fHashNone nHashType) = true then littleEndian 4 0
      else littleEndian 4 nSequence)

def serializeOutput (nOutput : Nat) : List UInt8 :=
  if fHashSingle nHashType = true /\ nOutput ≠ nIn then serializeTxOut CTxOut.null
  else serializeTxOut (tx.vout.getD nOutput CTxOut.null)

/-- The version with the type in its upper half. -/
def version32 : BitVec 32 :=
  tx.nVersion.signExtend 32 ||| (tx.nType.zeroExtend 32 <<< 16)

/-- `CTransactionSignatureSerializer::Serialize`, and the hash type after it. -/
def signaturePreimage : List UInt8 :=
  let nInputs := if fAnyoneCanPay nHashType then 1 else tx.vin.length
  let nOutputs :=
    if fHashNone nHashType then 0 else if fHashSingle nHashType then nIn + 1 else tx.vout.length
  littleEndian 4 (version32 tx).toNat ++
    writeCompactSize nInputs ++ (range nInputs).flatMap (serializeInput tx scriptCode nIn nHashType) ++
    writeCompactSize nOutputs ++ (range nOutputs).flatMap (serializeOutput tx nIn nHashType) ++
    littleEndian 4 tx.nLockTime ++
    (if tx.nVersion = 3 /\ tx.nType ≠ 0 then serializeVector tx.vExtraPayload else []) ++
    littleEndian 4 nHashType

/-- The number one as a hash, lowest byte first. -/
def hashOne : Valtype :=
  littleEndian 32 1

def signatureHash (crypto : Crypto) : Valtype :=
  if fHashSingle nHashType = true /\ tx.vout.length <= nIn then hashOne
  else crypto.hash .OP_HASH256 (signaturePreimage tx scriptCode nIn nHashType)

end

/-! ## The checker of a transaction -/

section

variable (crypto : Crypto) (tx : CMutableTransaction) (nIn : Nat)

/-- `CheckSig`: the hash type is the last byte of the signature. -/
def checkSig (vchSigIn vchPubKey : Valtype) (scriptCode : CScript) : Bool :=
  isValidPubKey vchPubKey &&
    match vchSigIn.getLast? with
    | none => false
    | some nHashType =>
      crypto.verify vchPubKey (signatureHash tx scriptCode nIn nHashType.toNat crypto) vchSigIn.dropLast

def LOCKTIME_THRESHOLD : Nat := 500000000
def SEQUENCE_FINAL : Nat := 0xffffffff

def checkLockTime (nLockTime : Int) : Bool :=
  ((decide (tx.nLockTime < LOCKTIME_THRESHOLD) && decide (nLockTime < LOCKTIME_THRESHOLD)) ||
    (decide (LOCKTIME_THRESHOLD <= tx.nLockTime) && decide ((LOCKTIME_THRESHOLD : Int) <= nLockTime))) &&
    decide (nLockTime <= tx.nLockTime) && decide ((inputAt tx nIn).2 ≠ SEQUENCE_FINAL)

def SEQUENCE_LOCKTIME_TYPE_FLAG : Nat := 4194304
def SEQUENCE_LOCKTIME_MASK : Nat := 0x0000ffff

def checkSequence (nSequence : Int) : Bool :=
  let txToSequence := (inputAt tx nIn).2
  let nLockTimeMask := SEQUENCE_LOCKTIME_TYPE_FLAG ||| SEQUENCE_LOCKTIME_MASK
  let txToSequenceMasked := txToSequence &&& nLockTimeMask
  let nSequenceMasked := nSequence.toNat &&& nLockTimeMask
  decide (2 <= (tx.nVersion.signExtend 32).toNat) &&
    decide (txToSequence &&& SEQUENCE_LOCKTIME_DISABLE_FLAG = 0) &&
    ((decide (txToSequenceMasked < SEQUENCE_LOCKTIME_TYPE_FLAG) &&
      decide (nSequenceMasked < SEQUENCE_LOCKTIME_TYPE_FLAG)) ||
      (decide (SEQUENCE_LOCKTIME_TYPE_FLAG <= txToSequenceMasked) &&
        decide (SEQUENCE_LOCKTIME_TYPE_FLAG <= nSequenceMasked))) &&
    decide (nSequenceMasked <= txToSequenceMasked)

/-- `GenericTransactionSignatureChecker`. -/
def transactionSignatureChecker : BaseSignatureChecker where
  checkSig := checkSig crypto tx nIn
  checkLockTime := checkLockTime tx nIn
  checkSequence := checkSequence tx nIn

end

/-! ## Signature scripts are not signed -/

/-- The transactions differ at most in their signature scripts. -/
structure SameUnsigned (tx other : CMutableTransaction) : Prop where
  vin : tx.vin.map CTxIn.unsigned = other.vin.map CTxIn.unsigned
  vout : tx.vout = other.vout
  nVersion : tx.nVersion = other.nVersion
  nType : tx.nType = other.nType
  nLockTime : tx.nLockTime = other.nLockTime
  vExtraPayload : tx.vExtraPayload = other.vExtraPayload

namespace SameUnsigned

variable {tx other : CMutableTransaction}

variable (same : SameUnsigned tx other)

include same

theorem length_eq : tx.vin.length = other.vin.length := by
  have lengths := congrArg length same.vin
  simpa only [length_map] using lengths

theorem inputAt_eq : inputAt tx = inputAt other := by
  unfold inputAt
  rw [same.vin]

theorem signaturePreimage_eq (scriptCode : CScript) (nIn nHashType : Nat) :
    signaturePreimage tx scriptCode nIn nHashType = signaturePreimage other scriptCode nIn nHashType := by
  have inputs :
    serializeInput tx scriptCode nIn nHashType = serializeInput other scriptCode nIn nHashType := by
    unfold serializeInput
    rw [same.inputAt_eq]
  have outputs : serializeOutput tx nIn nHashType = serializeOutput other nIn nHashType := by
    unfold serializeOutput
    rw [same.vout]
  unfold signaturePreimage version32
  rw [inputs, outputs, same.length_eq, same.vout, same.nVersion, same.nType, same.nLockTime,
    same.vExtraPayload]

/-- A checker of an input judges all scripts as before when only signature scripts are
changed. -/
theorem checker_eq (crypto : Crypto) (nIn : Nat) :
    transactionSignatureChecker crypto tx nIn = transactionSignatureChecker crypto other nIn := by
  have hashes : ∀ scriptCode nHashType,
    signatureHash tx scriptCode nIn nHashType crypto = signatureHash other scriptCode nIn nHashType crypto := by
    intro scriptCode nHashType
    unfold signatureHash
    rw [same.signaturePreimage_eq, same.vout]
  have signatures : checkSig crypto tx nIn = checkSig crypto other nIn := by
    funext vchSig vchPubKey scriptCode
    simp only [checkSig, hashes]
  have lockTimes : checkLockTime tx nIn = checkLockTime other nIn := by
    unfold checkLockTime
    rw [same.inputAt_eq, same.nLockTime]
  have sequences : checkSequence tx nIn = checkSequence other nIn := by
    unfold checkSequence
    rw [same.inputAt_eq, same.nVersion]
  unfold transactionSignatureChecker
  rw [signatures, lockTimes, sequences]

end SameUnsigned

/-- A script without its code separators.  What is not an operation is kept. -/
def withoutSeparators : Nat -> CScript -> CScript
  | 0, it => it
  | rounds + 1, it =>
    match getScriptOp it with
    | (none, _) => it
    | (some (opcode, _), next) =>
      (if opcode = 0xab then [] else it.take (it.length - next.length)) ++ withoutSeparators rounds next

/-- What lies behind the place where reading operations stops. -/
def unread : Nat -> CScript -> CScript
  | 0, it => it
  | rounds + 1, it =>
    match getScriptOp it with
    | (none, stopped) => stopped
    | (some _, next) => unread rounds next

/-- Reading an operation moves on, past one byte if it is a code separator. -/
theorem getScriptOp_spec (it : CScript) :
    (getScriptOp it).2 <:+ it /\ ∀ opcode data, (getScriptOp it).1 = some (opcode, data) ->
      (getScriptOp it).2.length < it.length /\ (opcode = 0xab -> it = 0xab :: (getScriptOp it).2) := by
  cases it with
  | nil => exact ⟨nil_suffix, by simp [getScriptOp]⟩
  | cons byte pc =>
    have behind : ∀ count, pc.drop count <:+ byte :: pc :=
      fun count => (drop_suffix count pc).trans (suffix_cons byte pc)
    rw [getScriptOp]
    split
    · next push =>
      split
      · exact ⟨behind 0, by simp⟩
      dsimp only
      split
      · exact ⟨behind _, by simp⟩
      rw [drop_drop]
      refine ⟨behind _, fun opcode data read => ⟨?_, ?_⟩⟩
      · simp only [length_drop, length_cons]
        omega
      · rintro rfl
        cases read
        exact absurd push (by decide)
    · refine ⟨behind 0, fun opcode data read => ⟨Nat.lt_succ_self _, ?_⟩⟩
      rintro rfl
      cases read
      rfl

/-- The first pass counts what is left out. -/
theorem length_withoutSeparators (rounds : Nat) (it : CScript) :
    (withoutSeparators rounds it).length + countCodeSeparators rounds it = it.length := by
  induction rounds generalizing it with
  | zero => rfl
  | succ rounds ih =>
    have spec := getScriptOp_spec it
    rw [withoutSeparators, countCodeSeparators]
    generalize getScriptOp it = read at spec ⊢
    rcases read with ⟨_ | ⟨opcode, data⟩, next⟩
    · rfl
    have rest := ih next
    have moved := spec.2 opcode data rfl
    dsimp only at moved ⊢
    split
    · next separator =>
      rw [moved.2 separator, length_append, length_cons]
      dsimp only [length_nil]
      omega
    · rw [length_append, length_take]
      omega

/-- The second pass writes all but what is not read. -/
theorem writeSegments_append_unread (rounds : Nat) (written it : CScript)
    (enough : it.length < rounds) :
    writeSegments rounds (written ++ it) it ++ unread rounds it = written ++ withoutSeparators rounds it := by
  induction rounds generalizing written it with
  | zero => exact absurd enough (Nat.not_lt_zero _)
  | succ rounds ih =>
    have spec := getScriptOp_spec it
    rw [writeSegments, unread, withoutSeparators]
    generalize getScriptOp it = read at spec ⊢
    rcases read with ⟨_ | ⟨opcode, data⟩, next⟩
    · rcases spec.1 with ⟨head, rfl⟩
      dsimp only
      rw [<- append_assoc, length_append, Nat.add_sub_cancel, take_left]
    have moved := spec.2 opcode data rfl
    dsimp only at moved ⊢
    split
    · next separator =>
      have whole := ih [] next (by omega)
      rw [nil_append] at whole
      rw [moved.2 separator, length_append, length_cons, append_assoc, whole,
        (by omega : written.length + (next.length + 1) - next.length - 1 = written.length), take_left]
    · rcases spec.1 with ⟨head, rfl⟩
      have rest := ih (written ++ head) next (by omega)
      rw [<- append_assoc, rest, length_append, Nat.add_sub_cancel, take_left, append_assoc]

/-- `SerializeScriptCode` writes the script without its code separators, with its size, unless
reading stops before its end. -/
theorem serializeScriptCode_eq_iff (scriptCode : CScript) :
    serializeScriptCode scriptCode = serializeVector (withoutSeparators (scriptCode.length + 1) scriptCode) <->
      unread (scriptCode.length + 1) scriptCode = [] := by
  have size := length_withoutSeparators (scriptCode.length + 1) scriptCode
  have written := writeSegments_append_unread (scriptCode.length + 1) [] scriptCode
    (Nat.lt_succ_self _)
  rw [nil_append, nil_append] at written
  rw [serializeScriptCode, serializeVector, <- written, Nat.sub_eq_of_eq_add size.symm, <- written,
    append_cancel_left_eq, self_eq_append_right]

/-- The byte behind a push of two bytes is announced and not written. -/
theorem truncated_push_is_not_written :
    serializeScriptCode [2, 0xaa] = [2, 2] /\ withoutSeparators 3 [2, 0xaa] = [2, 0xaa] := by
  decide +kernel

end StakeCubeCoin.Script
