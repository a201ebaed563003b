import StakeCubeCoin.Library.Matching
import StakeCubeCoin.Script.Interpreter

namespace StakeCubeCoin.Script

open Library.Matching Primitives CScriptNum

/-!
# Signatures of several keys

`OP_CHECKMULTISIG` looks for a key for each signature, in order.
-/

variable (crypto : Crypto) (flags : Flags) (checker : BaseSignatureChecker)

/-- The flags for encodings, `NULLDUMMY` and `NULLFAIL` are not set.  Each of them only adds reasons
for the opcode to fail. -/
def Plain : Prop :=
  ∀ flag ∈ [Flag.STRICTENC, .DERSIG, .LOW_S, .NULLDUMMY, .NULLFAIL], flags flag = false

/-- The loop of `OP_CHECKMULTISIG`, with the calls of `CheckSig` counted. -/
def scanSignatures (scriptCode : CScript) : List Valtype -> List Valtype -> Bool × Nat :=
  scanOrdered fun vchSig vchPubKey => checker.checkSig vchSig vchPubKey scriptCode

variable {flags}

theorem matchSignatures_eq (plain : Plain flags) (scriptCode : CScript) (sigs keys : List Valtype) :
    matchSignatures crypto flags checker scriptCode sigs keys =
      .ok (scanSignatures checker scriptCode sigs keys).1 := by
  unfold Plain at plain
  have signature : ∀ vchSig, checkSignatureEncoding crypto flags vchSig = .ok () := by
    intro vchSig
    unfold checkSignatureEncoding
    split
    · rfl
    · simp [plain]
      rfl
  have key : ∀ vchPubKey, checkPubKeyEncoding flags vchPubKey = .ok () := by
    intro vchPubKey
    simp [checkPubKeyEncoding, plain]
  unfold scanSignatures
  induction keys generalizing sigs with
  | nil => cases sigs <;> rfl
  | cons vchPubKey keys ih =>
    cases sigs with
    | nil => rfl
    | cons vchSig sigs =>
      rw [matchSignatures, signature, key, scanOrdered]
      simp only [bind, Except.bind, ih, apply_ite Prod.fst, apply_ite Except.ok]

/-- `OP_CHECKMULTISIG` with the keys and signatures that the stack holds below their numbers.  The
scan from the top accepts exactly if the signatures match keys in the same order. -/
theorem evalCheckMultiSig_eq (plain : Plain flags) (verify : Bool) {state : EvalState}
    {keysCount sigsCount dummy : Valtype} {keys sigs rest : List Valtype}
    (stack : state.stack = keysCount :: (keys ++ sigsCount :: (sigs ++ dummy :: rest)))
    (nKeysCount : operand flags keysCount = .ok keys.length)
    (nSigsCount : operand flags sigsCount = .ok sigs.length) :
    (evalCheckMultiSig crypto flags checker verify state =
      if MAX_PUBKEYS_PER_MULTISIG < keys.length then setError .PUBKEY_COUNT
      else if MAX_OPS_PER_SCRIPT < state.nOpCount + keys.length then setError .OP_COUNT
      else if keys.length < sigs.length then setError .SIG_COUNT else do
        let scriptCode <- sigs.foldlM (deleteSignature flags) state.pbegincodehash
        let left <- pushResult verify .CHECKMULTISIGVERIFY (scanSignatures checker scriptCode sigs keys).1 rest
        pure { state with stack := left, nOpCount := state.nOpCount + keys.length }) /\
    ∀ scriptCode, ((scanSignatures checker scriptCode sigs keys).1 = true <->
      OrderedMatch (fun vchSig vchPubKey => checker.checkSig vchSig vchPubKey scriptCode) sigs keys) /\
        (scanSignatures checker scriptCode sigs keys).2 <= keys.length := by
  refine ⟨?_, fun scriptCode => scanOrdered_spec sigs keys⟩
  -- A number is clamped far above the numbers of keys.
  have clamped : ∀ {count bound : Nat}, bound <= MAX_PUBKEYS_PER_MULTISIG ->
      ((getint count < 0 \/ (bound : Int) < getint count) <-> bound < count) /\
        (count <= bound -> getint count = count) := by
    intro count bound small
    unfold MAX_PUBKEYS_PER_MULTISIG at small
    unfold getint CScriptNum.INT_MAX CScriptNum.INT_MIN
    split
    · omega
    · split <;> omega
  rw [evalCheckMultiSig, stack]
  simp only [nKeysCount, bind, Except.bind, (clamped le_rfl).1]
  by_cases few : keys.length <= MAX_PUBKEYS_PER_MULTISIG
  · rw [if_neg (not_lt.mpr few), if_neg (not_lt.mpr few), (clamped few).2 le_rfl, Int.toNat_natCast,
      List.drop_left, List.take_left]
    simp only [nSigsCount, (clamped few).1]
    by_cases fewer : sigs.length <= keys.length
    · rw [if_neg (not_lt.mpr fewer), if_neg (not_lt.mpr fewer), (clamped few).2 fewer,
        Int.toNat_natCast, List.drop_left, List.take_left]
      simp only [matchSignatures_eq crypto checker plain, plain .NULLFAIL (by decide),
        plain .NULLDUMMY (by decide), Bool.and_false, Bool.false_and, Bool.false_eq_true, if_false]
    · rw [if_pos (not_le.mp fewer), if_pos (not_le.mp fewer)]
  · rw [if_pos (not_le.mp few), if_pos (not_le.mp few)]

/-- Two keys on the stack, of which the second accepts the one signature. -/
theorem evalCheckMultiSig_one_of_two : operand (fun _ => false) [2] = .ok 2 /\
    ∀ crypto, evalCheckMultiSig crypto (fun _ => false)
      ⟨fun _ vchPubKey _ => decide (vchPubKey = [3]), fun _ => true, fun _ => true⟩ false
      { stack := [[2], [2], [3], [1], [9], []], pbegincodehash := [] } =
        .ok { stack := [vchTrue], nOpCount := 2, pbegincodehash := [] } := by
  have plain : Plain fun _ => false := fun _ _ => rfl
  refine ⟨by decide, fun crypto => ?_⟩
  exact (@evalCheckMultiSig_eq crypto _ _ plain false
    { stack := [[2], [2], [3], [1], [9], []], pbegincodehash := [] } [2] [1] [] [[2], [3]] [[9]] []
    rfl (by decide) (by decide)).1.trans (by decide)

end StakeCubeCoin.Script
