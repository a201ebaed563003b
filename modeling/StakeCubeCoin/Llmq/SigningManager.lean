import StakeCubeCoin.Llmq.RecoveredSigsDb

namespace StakeCubeCoin.Llmq

open Primitives

/-!
# Signing requests

`CSigningManager` of `llmq/signing.{h,cpp}`: a member of a quorum signs a message for a request
after it has recorded a vote for it.  The quorums are those of other files; so are the members
that a message is relayed to, and what is done with a new recovered signature.
-/

/-- A call of `AsyncSign`. -/
structure SignCall where
  quorum : CQuorum
  id : Uint256
  msgHash : Uint256

/-- What a call of `AsyncSignIfMember` looks up: the masternode that runs, and the quorums. -/
structure SigningView where
  fMasternodeMode : Bool
  proTxHash : Uint256
  selectQuorumForSigning : LLMQType -> Uint256 -> Option CQuorum
  getQuorum : LLMQType -> Uint256 -> Option CQuorum

def CQuorum.isValidMember (quorum : CQuorum) (proTxHash : Uint256) : Bool :=
  match quorum.members.findIdx? (· == proTxHash) with
  | none => false
  | some index => quorum.isValidIndex index

/-- `CSigningManager`, without what is pending. -/
structure CSigningManager where
  db : CRecoveredSigsDb
  lastCleanupTime : Int := 0

namespace CSigningManager

variable (hashes : SigningHashes) (self : CSigningManager)

def processRecoveredSig (recoveredSig : CRecoveredSig) (adjustedTime : Int) : CSigningManager :=
  let (known, byHash) := self.db.hasRecoveredSigForHash (hashes.getHash recoveredSig)
  if known then { self with db := byHash }
  else
    let (hasSig, byId) := byHash.hasRecoveredSigForId recoveredSig.llmqType recoveredSig.id
    if hasSig && (byId.readRecoveredSig recoveredSig.llmqType recoveredSig.id).isSome then
      { self with db := byId }
    else { self with db := byId.writeRecoveredSig hashes recoveredSig adjustedTime }

def truncateRecoveredSig (llmqType : LLMQType) (id : Uint256) : CSigningManager :=
  { self with db := self.db.truncateRecoveredSig hashes llmqType id }

/-- The readings of the clocks in one call of `Cleanup`. -/
structure CleanupTimes where
  millisBefore : Int
  recoveredSigs : Int
  votes : Int
  millisAfter : Int

def cleanup (maxAge : Int) (times : CleanupTimes) : CSigningManager :=
  if times.millisBefore - self.lastCleanupTime < 5000 then self
  else
    { db := (self.db.cleanupOldRecoveredSigs hashes maxAge times.recoveredSigs).cleanupOldVotes maxAge times.votes
      lastCleanupTime := times.millisAfter }

/-- The quorum that `AsyncSignIfMember` signs for, if this masternode is a valid member. -/
def signingQuorum (view : SigningView) (llmqType : LLMQType) (id quorumHash : Uint256) :
    Option CQuorum :=
  if !view.fMasternodeMode || view.proTxHash.isNull then none
  else
    let quorum :=
      if quorumHash.isNull then view.selectQuorumForSigning llmqType id
      else view.getQuorum llmqType quorumHash
    quorum.filter fun found => found.isValidMember view.proTxHash

/-- What `AsyncSignIfMember` returns, the call of `AsyncSign`, whether a vote was written, and the
manager afterwards. -/
structure SignOutcome where
  result : Bool
  asyncSign : Option SignCall
  voted : Bool
  manager : CSigningManager

def asyncSignIfMember (view : SigningView) (llmqType : LLMQType)
    (id msgHash quorumHash : Uint256) (allowReSign : Bool) (adjustedTime : Int) : SignOutcome :=
  match signingQuorum view llmqType id quorumHash with
  | none => { result := false, asyncSign := none, voted := false, manager := self }
  | some quorum =>
    let hasVoted := self.db.hasVotedOnId llmqType id
    let prevMsgHash := (self.db.getVoteForId llmqType id).getD 0
    if hasVoted && (decide (msgHash ≠ prevMsgHash) || !allowReSign) then
      { result := false, asyncSign := none, voted := false, manager := self }
    else
      let (hasSig, queried) := self.db.hasRecoveredSigForId llmqType id
      if hasSig then
        { result := true, asyncSign := none, voted := false, manager := { self with db := queried } }
      else if hasVoted then
        { result := true, asyncSign := some ⟨quorum, id, msgHash⟩, voted := false
          manager := { self with db := queried } }
      else
        { result := true, asyncSign := some ⟨quorum, id, msgHash⟩, voted := true
          manager := { self with db := queried.writeVoteForId llmqType id msgHash adjustedTime } }

end CSigningManager
end StakeCubeCoin.Llmq
