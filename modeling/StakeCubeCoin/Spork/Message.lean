import Mathlib

namespace StakeCubeCoin.Spork

/-!
# Spork messages

`CSporkMessage` of `spork.cpp`.  Outside testnet the signed text is the concatenation of three
decimal numbers with nothing in between.  Recovering a key from a signature is left open: it may
give anything, but it sees no more of a message than what is signed and the signature.
-/

structure CSporkMessage where
  nSporkID : Int
  nValue : Int
  nTimeSigned : Int
  vchSig : List UInt8 := []
  deriving DecidableEq

/-- How keys are recovered: from the three numbers on testnet, from the text elsewhere. -/
structure KeyRecovery (KeyID : Type) where
  testnet : Bool := false
  recoverHash : Int × Int × Int -> List UInt8 -> Option KeyID := fun _ _ => none
  recoverMessage : String -> List UInt8 -> Option KeyID

namespace CSporkMessage

variable {KeyID : Type} (keys : KeyRecovery KeyID) (spork : CSporkMessage)

/-- The text that is signed outside testnet. -/
def strMessage : String :=
  toString spork.nSporkID ++ toString spork.nValue ++ toString spork.nTimeSigned

def getSignerKeyID : Option KeyID :=
  if keys.testnet then
    keys.recoverHash (spork.nSporkID, spork.nValue, spork.nTimeSigned) spork.vchSig
  else keys.recoverMessage spork.strMessage spork.vchSig

/-- `CheckSignature`: the recovered key is compared. -/
def checkSignature [DecidableEq KeyID] (pubKeyId : KeyID) : Bool :=
  decide (spork.getSignerKeyID keys = some pubKeyId)

/-- Messages with the same text are the same exactly if the first two numbers are cut off at the
same places. -/
theorem fields_eq_iff_lengths {first second : CSporkMessage}
    (same : first.strMessage = second.strMessage) :
    first.nSporkID = second.nSporkID /\ first.nValue = second.nValue /\
        first.nTimeSigned = second.nTimeSigned <->
      (toString first.nSporkID).length = (toString second.nSporkID).length /\
        (toString first.nValue).length = (toString second.nValue).length := by
  constructor
  · rintro ⟨id, value, -⟩
    rw [id, value]
    exact ⟨rfl, rfl⟩
  rintro ⟨idLength, valueLength⟩
  have texts := congrArg String.toList same
  simp only [strMessage, String.toList_append, List.append_assoc] at texts
  rcases List.append_inj texts idLength with ⟨id, rest⟩
  rcases List.append_inj rest valueLength with ⟨value, time⟩
  exact ⟨Int.repr_injective (String.toList_injective id),
    Int.repr_injective (String.toList_injective value),
    Int.repr_injective (String.toList_injective time)⟩

theorem fields_eq_iff_lengths_off :
    (10001 : Int) = 10001 /\ (40709088001 : Int) = 4070908800 /\ (655555555 : Int) = 1655555555 <->
      (toString (10001 : Int)).length = (toString (10001 : Int)).length /\
        (toString (40709088001 : Int)).length = (toString (4070908800 : Int)).length :=
  @fields_eq_iff_lengths ⟨10001, 40709088001, 655555555, []⟩ ⟨10001, 4070908800, 1655555555, []⟩
    (by decide +kernel)

/-- A signature that switches a spork off until the year 2099 also signs ten times that value,
at an earlier time. -/
theorem signature_of_two_messages : CSporkMessage.strMessage ⟨10001, 40709088001, 655555555, []⟩ =
      CSporkMessage.strMessage ⟨10001, 4070908800, 1655555555, []⟩ /\
    ∀ (keys : KeyRecovery Nat) (vchSig : List UInt8) (pubKeyId : Nat), keys.testnet = false ->
      checkSignature keys ⟨10001, 40709088001, 655555555, vchSig⟩ pubKeyId =
        checkSignature keys ⟨10001, 4070908800, 1655555555, vchSig⟩ pubKeyId := by
  have same : CSporkMessage.strMessage ⟨10001, 40709088001, 655555555, []⟩ =
      CSporkMessage.strMessage ⟨10001, 4070908800, 1655555555, []⟩ := by decide +kernel
  refine ⟨same, fun keys vchSig pubKeyId outside => ?_⟩
  have signer : getSignerKeyID keys ⟨10001, 40709088001, 655555555, vchSig⟩ =
      getSignerKeyID keys ⟨10001, 4070908800, 1655555555, vchSig⟩ := by
    rw [getSignerKeyID, getSignerKeyID, outside]
    exact congrArg (keys.recoverMessage · vchSig) same
  rw [checkSignature, checkSignature, signer]

end CSporkMessage
end StakeCubeCoin.Spork
