import StakeCubeCoin.Script.SignatureHash

namespace StakeCubeCoin.Script

open Primitives List CScript Nat

/-!
# Spending a pay-to-public-key-hash output

The evaluation of a signature and a public key against `OP_DUP OP_HASH160 <hash>
OP_EQUALVERIFY OP_CHECKSIG`, under the flags with which the mixing server verifies scripts.
-/

/-- `SCRIPT_VERIFY_P2SH | SCRIPT_VERIFY_STRICTENC`. -/
def P2SH_STRICTENC : Flags
  | .P2SH | .STRICTENC => true
  | _ => false

def payToPubKeyHash (keyHash : Valtype) : CScript :=
  0x76 :: 0xa9 :: 0x14 :: (keyHash ++ [0x88, 0xac])

def keyHashOf (script : CScript) : Valtype :=
  (script.drop 3).take 20

theorem eq_payToPubKeyHash {script : CScript} (template : isPayToPublicKeyHash script = true) :
    script = payToPubKeyHash (keyHashOf script) /\ (keyHashOf script).length = 20 := by
  simp only [isPayToPublicKeyHash, Bool.and_eq_true, beq_iff_eq] at template
  obtain ⟨⟨⟨⟨⟨size, dup⟩, hash160⟩, push⟩, equalVerify⟩, checkSig⟩ := template
  match script, size, dup, hash160, push, equalVerify, checkSig with
  | first :: second :: third :: rest, size, dup, hash160, push, equalVerify, checkSig =>
    simp only [List.getElem?_cons_zero, List.getElem?_cons_succ, Option.some.injEq] at dup hash160 push
    subst dup hash160 push
    have left : rest.length = 22 := by
      simp only [length_cons] at size
      omega
    have last : rest.drop 20 = [0x88, 0xac] := by
      have ends : (rest.drop 20).length = 2 := by
        rw [length_drop, left]
      have one : (rest.drop 20)[0]? = some 0x88 := by
        rw [List.getElem?_drop]
        exact equalVerify
      have two : (rest.drop 20)[1]? = some 0xac := by
        rw [List.getElem?_drop]
        exact checkSig
      match rest.drop 20, ends, one, two with
      | [byte, other], _, one, two =>
        simp only [List.getElem?_cons_zero, List.getElem?_cons_succ, Option.some.injEq] at one two
        rw [one, two]
    constructor
    · change _ :: _ :: _ :: rest = _ :: _ :: _ :: (rest.take 20 ++ [0x88, 0xac])
      rw [<- last, take_append_drop]
      rfl
    · change (rest.take 20).length = 20
      rw [length_take, left]
      rfl

section

variable (crypto : Crypto) (checker : BaseSignatureChecker)

theorem evalLoop_of_step {flags : Flags} {rounds : Nat} {byte : UInt8} {rest pc : CScript}
    {state next : EvalState}
    (step : evalStep crypto flags checker (byte :: rest) state = .ok (next, pc)) :
    evalLoop crypto flags checker (rounds + 1) (byte :: rest) state =
      evalLoop crypto flags checker rounds pc next := by
  rw [evalLoop, step]
  rfl

theorem evalStep_pushVector {b : Valtype} (short : b.length < 76) (rest : CScript)
    (state : EvalState) (executed : state.vfExec = [])
    (room : state.stack.length + state.altstack.length < MAX_STACK_SIZE) :
    evalStep crypto P2SH_STRICTENC checker (pushVector b ++ rest) state =
      .ok ({ state with stack := b :: state.stack }, rest) := by
  have size : (UInt8.ofNat b.length).toNat = b.length := by
    exact mod_eq_of_lt (by omega)
  have push : UInt8.ofNat b.length <= OP_PUSHDATA4 := by
    rw [UInt8.le_iff_toNat_le, size]
    exact le_trans (le_of_lt short) (by decide)
  have uncounted : ¬OP_16 < UInt8.ofNat b.length := by
    rw [UInt8.lt_iff_toNat_lt, size]
    exact not_lt.mpr (le_trans (le_of_lt short) (by decide))
  have opcode : opcodeOf (UInt8.ofNat b.length) = .OP_PUSHDATA := by
    unfold opcodeOf
    rw [if_pos push]
  have checked : checkOp P2SH_STRICTENC (UInt8.ofNat b.length) b state.nOpCount =
    .ok state.nOpCount := by
    have fits : ¬MAX_SCRIPT_ELEMENT_SIZE < b.length := by
      unfold MAX_SCRIPT_ELEMENT_SIZE
      omega
    unfold checkOp
    rw [opcode, if_neg fits, if_neg uncounted, if_neg (fun both => uncounted both.1)]
    rfl
  have pushed : evalChecked crypto P2SH_STRICTENC checker (UInt8.ofNat b.length) b rest state =
    .ok { state with stack := b :: state.stack } := by
    have running : state.vfExec.contains false = false := by
      rw [executed]
      rfl
    unfold evalChecked
    rw [running, decide_eq_true push]
    rfl
  have kept : checkStackSize { state with stack := b :: state.stack } =
    .ok { state with stack := b :: state.stack } := by
    unfold checkStackSize
    rw [if_neg]
    simp only [length_cons]
    omega
  rw [evalStep, getScriptOp_pushVector short]
  change (checkOp P2SH_STRICTENC _ b state.nOpCount >>= _) = _
  rw [checked]
  change (evalChecked crypto P2SH_STRICTENC checker _ b rest state >>= _) = _
  rw [pushed]
  change (checkStackSize _ >>= _) = _
  rw [kept]
  rfl

theorem length_pushVector {b : Valtype} (short : b.length < 76) :
    (pushVector b).length = b.length + 1 := by
  unfold pushVector pushHead
  rw [if_pos (show b.length < OP_PUSHDATA1.toNat from short), length_append]
  exact Nat.add_comm 1 _

theorem evalLoop_pushVector {b : Valtype} (short : b.length < 76) {rounds : Nat} (rest : CScript)
    (state : EvalState) (executed : state.vfExec = [])
    (room : state.stack.length + state.altstack.length < MAX_STACK_SIZE) :
    evalLoop crypto P2SH_STRICTENC checker (rounds + 1) (pushVector b ++ rest) state =
      evalLoop crypto P2SH_STRICTENC checker rounds rest { state with stack := b :: state.stack } := by
  have step := evalStep_pushVector crypto checker short rest state executed room
  have head : pushVector b ++ rest = UInt8.ofNat b.length :: (b ++ rest) := by
    unfold pushVector pushHead
    rw [if_pos (show b.length < OP_PUSHDATA1.toNat from short)]
    rfl
  rw [head] at step ⊢
  exact evalLoop_of_step crypto checker step

/-- Two short pushes leave two elements. -/
theorem evalScript_pushes {sig pubKey : Valtype} (shortSig : sig.length < 76)
    (shortKey : pubKey.length < 76) :
    evalScript crypto P2SH_STRICTENC checker [] (pushVector sig ++ pushVector pubKey) = .ok [pubKey, sig] := by
  have size :
    (pushVector sig ++ pushVector pubKey).length = (sig.length + pubKey.length) + 1 + 1 := by
    rw [length_append, length_pushVector shortSig, length_pushVector shortKey]
    omega
  have small : ¬MAX_SCRIPT_SIZE < (pushVector sig ++ pushVector pubKey).length := by
    unfold MAX_SCRIPT_SIZE
    omega
  have last := @evalLoop_pushVector crypto checker pubKey shortKey (sig.length + pubKey.length) []
    { stack := [sig], pbegincodehash := pushVector sig ++ pushVector pubKey } rfl
    (show 1 + 0 < 1000 by decide)
  rw [append_nil] at last
  unfold evalScript
  rw [if_neg small, size, evalLoop_pushVector crypto checker shortSig _
    { stack := [], pbegincodehash := pushVector sig ++ pushVector pubKey } rfl (show 0 + 0 < 1000 by decide), last]
  cases sig.length + pubKey.length <;> rfl

/-- The template evaluated on a signature and a key: the key must have the hash, and what
is left is the verdict on the signature. -/
theorem evalScript_payToPubKeyHash {keyHash : Valtype} (size : keyHash.length = 20)
    (sig pubKey : Valtype) :
    evalScript crypto P2SH_STRICTENC checker [pubKey, sig] (payToPubKeyHash keyHash) =
      if crypto.hash .OP_HASH160 pubKey = keyHash then do
        let fSuccess <- evalCheckSig crypto P2SH_STRICTENC checker (payToPubKeyHash keyHash) sig pubKey
        pure [ofBool fSuccess]
      else setError .EQUALVERIFY := by
  have push : pushVector keyHash = 0x14 :: keyHash := by
    unfold pushVector pushHead
    rw [size]
    rfl
  have script : payToPubKeyHash keyHash = 0x76 :: 0xa9 :: (pushVector keyHash ++ [0x88, 0xac]) := by
    rw [push]
    rfl
  have rounds : (payToPubKeyHash keyHash).length = 25 := by
    simp only [payToPubKeyHash, length_cons, length_append, length_nil, size]
  unfold evalScript
  rw [rounds]
  generalize code : payToPubKeyHash keyHash = scriptCode
  rw [script] at code
  nth_rewrite 1 [<- code]
  have dup : ∀ rest, evalStep crypto P2SH_STRICTENC checker (0x76 :: rest) ⟨[pubKey, sig], [], [],
    0, scriptCode⟩ =
      .ok (⟨[pubKey, pubKey, sig], [], [], 1, scriptCode⟩, rest) :=
    fun _ => rfl
  have hash160 : ∀ rest,
    evalStep crypto P2SH_STRICTENC checker (0xa9 :: rest) ⟨[pubKey, pubKey, sig], [], [], 1, scriptCode⟩ =
      .ok (⟨[crypto.hash .OP_HASH160 pubKey, pubKey, sig], [], [], 2, scriptCode⟩, rest) :=
    fun _ => rfl
  have equalVerify : evalStep crypto P2SH_STRICTENC checker [0x88, 0xac]
    ⟨[keyHash, crypto.hash .OP_HASH160 pubKey, pubKey, sig], [], [], 2, scriptCode⟩ =
      if crypto.hash .OP_HASH160 pubKey = keyHash then .ok (⟨[pubKey, sig], [], [], 3, scriptCode⟩, [0xac])
      else setError .EQUALVERIFY := by
    change ((pushResult true .EQUALVERIFY (decide (crypto.hash .OP_HASH160 pubKey = keyHash)) [pubKey, sig] >>= _) >>= _) = _
    by_cases same : crypto.hash .OP_HASH160 pubKey = keyHash
    · rw [if_pos same, decide_eq_true same]
      rfl
    · rw [if_neg same, decide_eq_false same]
      rfl
  have checkSig : evalStep crypto P2SH_STRICTENC checker [0xac] ⟨[pubKey, sig], [], [],
    3, scriptCode⟩ =
    evalCheckSig crypto P2SH_STRICTENC checker scriptCode sig pubKey >>= fun fSuccess =>
      .ok (⟨[ofBool fSuccess], [], [], 4, scriptCode⟩, []) := by
    change (((evalCheckSig crypto P2SH_STRICTENC checker scriptCode sig pubKey >>= _) >>= _) >>= _) = _
    cases evalCheckSig crypto P2SH_STRICTENC checker scriptCode sig pubKey <;> rfl
  rw [evalLoop_of_step crypto checker (dup _), evalLoop_of_step crypto checker (hash160 _),
    evalLoop_pushVector crypto checker (by omega) _ ⟨[crypto.hash .OP_HASH160 pubKey, pubKey, sig], [], [], 2, scriptCode⟩
      rfl (show 3 + 0 < 1000 by decide)]
  by_cases same : crypto.hash .OP_HASH160 pubKey = keyHash
  · rw [if_pos same] at equalVerify ⊢
    rw [evalLoop_of_step crypto checker equalVerify, evalLoop, checkSig]
    cases evalCheckSig crypto P2SH_STRICTENC checker scriptCode sig pubKey <;> rfl
  · rw [if_neg same] at equalVerify ⊢
    rw [evalLoop, equalVerify]
    rfl

end

/-- A signature and a key whose encodings are accepted. -/
structure WellEncoded (sig pubKey : Valtype) : Prop where
  validSignature : isValidSignatureEncoding sig = true
  definedHashType : isDefinedHashtypeSignature sig = true
  knownPubKey : isCompressedOrUncompressedPubKey pubKey = true

instance WellEncoded.decidable (sig pubKey : Valtype) : Decidable (WellEncoded sig pubKey) :=
  decidable_of_iff (isValidSignatureEncoding sig = true /\ isDefinedHashtypeSignature sig = true /\
    isCompressedOrUncompressedPubKey pubKey = true)
    ⟨fun ⟨first, second, third⟩ => ⟨first, second, third⟩, fun ⟨first, second, third⟩ => ⟨first, second, third⟩⟩

namespace WellEncoded

variable {sig pubKey : Valtype}

theorem length_sig_lt (encoded : WellEncoded sig pubKey) : sig.length < 76 := by
  have valid := encoded.validSignature
  simp only [isValidSignatureEncoding, Bool.and_eq_true, decide_eq_true_eq] at valid
  omega

theorem length_pubKey_lt (encoded : WellEncoded sig pubKey) : pubKey.length < 76 := by
  have valid := encoded.knownPubKey
  unfold isCompressedOrUncompressedPubKey at valid
  split at valid
  · cases valid
  split at valid
  · have size := of_decide_eq_true valid
    omega
  split at valid
  · have size := of_decide_eq_true valid
    omega
  · cases valid

end WellEncoded

/-- The script code of a signature: the output's script without copies of the signature. -/
def scriptCodeFor (scriptPubKey : CScript) (sig : Valtype) : CScript :=
  (findAndDelete scriptPubKey (pushVector sig)).1

/-- A signature that the checker accepts, with accepted encodings, gets the verdict true. -/
theorem evalCheckSig_of_wellEncoded {crypto : Crypto} {checker : BaseSignatureChecker}
    {sig pubKey : Valtype} {scriptPubKey : CScript} (encoded : WellEncoded sig pubKey) :
    evalCheckSig crypto P2SH_STRICTENC checker scriptPubKey sig pubKey =
      .ok (checker.checkSig sig pubKey (scriptCodeFor scriptPubKey sig)) := by
  have kept :
    deleteSignature P2SH_STRICTENC scriptPubKey sig = .ok (scriptCodeFor scriptPubKey sig) := by
    unfold deleteSignature
    dsimp only
    rw [if_neg (by simp [P2SH_STRICTENC])]
    rfl
  have signature : checkSignatureEncoding crypto P2SH_STRICTENC sig = .ok () := by
    unfold checkSignatureEncoding
    rw [encoded.validSignature, encoded.definedHashType]
    split <;> rfl
  have key : checkPubKeyEncoding P2SH_STRICTENC pubKey = .ok () := by
    unfold checkPubKeyEncoding
    rw [encoded.knownPubKey]
    rfl
  unfold evalCheckSig
  rw [kept, signature, key]
  change (if (!checker.checkSig sig pubKey (scriptCodeFor scriptPubKey sig) && P2SH_STRICTENC .NULLFAIL &&
    decide (sig ≠ [])) = true then _ else _) = _
  rw [if_neg (by simp [P2SH_STRICTENC])]

/-- A signature and a key spend the output exactly if the key has the hash and the checker
accepts the signature. -/
theorem verifyScript_payToPubKeyHash {crypto : Crypto} {checker : BaseSignatureChecker}
    {keyHash sig pubKey : Valtype} (size : keyHash.length = 20) (encoded : WellEncoded sig pubKey) :
    verifyScript crypto P2SH_STRICTENC checker (pushVector sig ++ pushVector pubKey)
      (payToPubKeyHash keyHash) = .ok () <-> crypto.hash .OP_HASH160 pubKey = keyHash /\
        checker.checkSig sig pubKey (scriptCodeFor (payToPubKeyHash keyHash) sig) = true := by
  have notScriptHash : isPayToScriptHash (payToPubKeyHash keyHash) = false := by
    simp [isPayToScriptHash, payToPubKeyHash, size]
  have verdict : verifyScript crypto P2SH_STRICTENC checker (pushVector sig ++ pushVector pubKey)
    (payToPubKeyHash keyHash) = (do
      let stack <- evalScript crypto P2SH_STRICTENC checker [pubKey, sig] (payToPubKeyHash keyHash)
      checkTop stack) := by
    unfold verifyScript
    rw [evalScript_pushes crypto checker encoded.length_sig_lt encoded.length_pubKey_lt, notScriptHash]
    change (evalScript crypto P2SH_STRICTENC checker [pubKey, sig] (payToPubKeyHash keyHash) >>= _) = _
    congr 1
    funext stack
    cases checkTop stack <;> rfl
  rw [verdict, evalScript_payToPubKeyHash crypto checker size, evalCheckSig_of_wellEncoded encoded]
  by_cases same : crypto.hash .OP_HASH160 pubKey = keyHash
  · rw [if_pos same]
    cases accepted : checker.checkSig sig pubKey (scriptCodeFor (payToPubKeyHash keyHash) sig) with
    | true => exact ⟨fun _ => ⟨same, rfl⟩, fun _ => rfl⟩
    | false => exact ⟨nofun, fun both => absurd both.2 (by decide)⟩
  · rw [if_neg same]
    exact ⟨fun verified => absurd verified (by simp [setError, Bind.bind, Except.bind]), fun both => absurd both.1 same⟩

end StakeCubeCoin.Script
