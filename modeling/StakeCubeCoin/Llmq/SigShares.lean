import StakeCubeCoin.Bls.BatchVerifier

namespace StakeCubeCoin.Llmq

open Primitives Bls

/-!
# Signature shares

`CSigSharesManager` of `llmq/signing_shares.{h,cpp}`: shares of quorum members are received in
messages of other nodes, wait until they are verified in a batch, and are stored.  When there
are enough of them for a message, the signature is recovered from them.  What nodes are asked
for and are sent is left out.
-/

abbrev NodeId := Int

/-- The part of `CQuorum` that is used for signature shares. -/
structure CQuorum where
  type : LLMQType
  quorumHash : Uint256
  quorumPublicKey : CBLSPublicKey
  threshold : Nat
  members : List Uint256
  validMembers : List Bool
  hasVerificationVector : Bool
  buildPubKeyShare : Nat -> CBLSPublicKey

/-- A quorum of two members with one key. -/
def CQuorum.sample (type : LLMQType) (quorumHash : Uint256) : CQuorum where
  type := type
  quorumHash := quorumHash
  quorumPublicKey := 1
  threshold := 2
  members := [7, 8]
  validMembers := [true, true]
  hasVerificationVector := true
  buildPubKeyShare := fun _ => 1

namespace CQuorum

variable (quorum : CQuorum)

def isMember (proTxHash : Uint256) : Bool :=
  quorum.members.contains proTxHash

def isValidIndex (memberIdx : Nat) : Bool :=
  (quorum.validMembers[memberIdx]?).getD false

def getPubKeyShare (memberIdx : Nat) : CBLSPublicKey :=
  if !quorum.hasVerificationVector || decide (quorum.members.length <= memberIdx) ||
    !quorum.isValidIndex memberIdx then 0
  else quorum.buildPubKeyShare memberIdx

end CQuorum

structure CSigShare where
  llmqType : LLMQType
  quorumHash : Uint256
  quorumMember : BitVec 16
  id : Uint256
  msgHash : Uint256
  sigShare : CBLSSignature
  deriving DecidableEq

abbrev SigShareKey := Uint256 × BitVec 16

/-- Code of other files: the curve, hashes, the quorums, the own masternode with its key shares, and
the recovery of a signature. -/
structure SigSharesEnv where
  curve : BlsCurve
  buildSignHash : LLMQType -> Uint256 -> Uint256 -> Uint256 -> Uint256
  getQuorum : LLMQType -> Uint256 -> Option CQuorum
  isQuorumActive : LLMQType -> Uint256 -> Bool
  proTxHash : Uint256
  memberIndex : CQuorum -> BitVec 16
  sign : CQuorum -> Uint256 -> Option CBLSSignature
  recover : List (CBLSSignature × Uint256) -> Option CBLSSignature

namespace SigSharesEnv

variable (env : SigSharesEnv) (share : CSigShare)

def signHash : Uint256 :=
  env.buildSignHash share.llmqType share.quorumHash share.id share.msgHash

def key : SigShareKey :=
  (env.signHash share, share.quorumMember)

def messageOf (quorum : CQuorum) (share : CSigShare) : Message SigShareKey where
  msgId := env.key share
  msgHash := env.signHash share
  sig := share.sigShare
  pubKey := quorum.getPubKeyShare share.quorumMember.toNat

/-- The share verifies under the public key share of the member that it names. -/
def verifies : Bool :=
  match env.getQuorum share.llmqType share.quorumHash with
  | none => false
  | some quorum => (env.messageOf quorum share).valid env.curve

end SigSharesEnv

/-- What the signing manager answers about recovered signatures: while shares are collected, before
one is stored, and before a signature is recovered. -/
structure RecoveredView where
  whenCollected : CSigShare -> Bool
  whenProcessed : CSigShare -> Bool
  whenRecovering : CSigShare -> Bool

/-- The state of `CSigSharesManager`, with the shares that were created, and those that signatures
were recovered from. -/
structure SigSharesState where
  sigShares : List CSigShare := []
  pendingIncomingSigShares : NodeId -> List CSigShare := fun _ => []
  banned : List NodeId := []
  recoveredSigsCounter : Nat := 0
  created : List CSigShare := []
  interpolated : List (List CSigShare) := []

namespace SigSharesState

variable (env : SigSharesEnv) (shares : List CSigShare)

def hasShare (key : SigShareKey) : Bool :=
  shares.any fun share => env.key share == key

def addShare (share : CSigShare) : List CSigShare :=
  if hasShare env shares (env.key share) then shares else shares ++ [share]

def eraseShare (key : SigShareKey) : List CSigShare :=
  shares.filter fun share => env.key share != key

def eraseAllForSignHash (signHash : Uint256) : List CSigShare :=
  shares.filter fun share => env.signHash share != signHash

variable (state : SigSharesState)

def addPending (node : NodeId) (shares : List CSigShare) : SigSharesState :=
  { state with
    pendingIncomingSigShares := Function.update state.pendingIncomingSigShares node
      (shares.foldl (addShare env) (state.pendingIncomingSigShares node)) }

def banNode (node : NodeId) : SigSharesState :=
  if node = -1 then state else { state with banned := state.banned.insert node }

def removeBannedNodeStates : SigSharesState :=
  { state with
    pendingIncomingSigShares := fun node =>
      if node ∈ state.banned then [] else state.pendingIncomingSigShares node }

/-- With the session go the shares for it that are still pending, of every node. -/
def removeSigSharesForSession (signHash : Uint256) : SigSharesState :=
  { state with
    sigShares := eraseAllForSignHash env state.sigShares signHash
    pendingIncomingSigShares := fun node =>
      eraseAllForSignHash env (state.pendingIncomingSigShares node) signHash }

/-- A session that a node has announced. -/
structure SessionInfo where
  llmqType : LLMQType
  quorumHash : Uint256
  id : Uint256
  msgHash : Uint256

def rebuildSigShare (session : SessionInfo) (part : BitVec 16 × CBLSSignature) : CSigShare where
  llmqType := session.llmqType
  quorumHash := session.quorumHash
  quorumMember := part.1
  id := session.id
  msgHash := session.msgHash
  sigShare := part.2

/-- The loop of `PreVerifyBatchedSigShares`: a member that is named twice, or is not there, or is
not valid. -/
def badMembers (quorum : CQuorum) : List (BitVec 16) -> List (BitVec 16 × CBLSSignature) -> Bool
  | _, [] => false
  | dupMembers, part :: rest =>
    decide (part.1 ∈ dupMembers) || decide (quorum.members.length <= part.1.toNat) ||
      !quorum.isValidIndex part.1.toNat || badMembers quorum (part.1 :: dupMembers) rest

/-- The quorum is active, we are a member, and we can verify its shares. -/
def isUsable (llmqType : LLMQType) (quorum : CQuorum) : Bool :=
  env.isQuorumActive llmqType quorum.quorumHash && quorum.isMember env.proTxHash &&
    quorum.hasVerificationVector

variable (view : RecoveredView)

/-- `ProcessMessageBatchedSigShares`, for the session that the node has announced. -/
def processMessageBatchedSigShares (node : NodeId) (session : SessionInfo)
    (sigShares : List (BitVec 16 × CBLSSignature)) (state : SigSharesState) : SigSharesState :=
  match env.getQuorum session.llmqType session.quorumHash with
  | none => state
  | some quorum =>
    if !isUsable env session.llmqType quorum then state
    else if badMembers quorum [] sigShares then state.banNode node
    else
      state.addPending env node ((sigShares.map (rebuildSigShare session)).filter fun share =>
        !hasShare env state.sigShares (env.key share) && !view.whenCollected share)

def processMessageSigShare (node : NodeId) (share : CSigShare)
    (state : SigSharesState) : SigSharesState :=
  match env.getQuorum share.llmqType share.quorumHash with
  | none => state
  | some quorum =>
    if !isUsable env share.llmqType quorum then state
    else if quorum.members.length <= share.quorumMember.toNat then state.banNode node
    else if !quorum.isValidIndex share.quorumMember.toNat then state.banNode node
    else if hasShare env state.sigShares (env.key share) then state
    else if view.whenCollected share then state
    else state.addPending env node [share]

/-! ## Collecting what is to be verified -/

/-- How containers without an order are passed through: the nodes, the first share of a node, and
the shares by node. -/
structure MapOrder where
  nodes : List NodeId
  first : List CSigShare -> Option CSigShare
  first_mem : ∀ shares share, first shares = some share -> share ∈ shares
  first_isSome : ∀ shares ≠ [], (first shares).isSome = true
  byNodes : List (NodeId × List CSigShare)

def emplaceShare (node : NodeId) (share : CSigShare) :
    List (NodeId × List CSigShare) -> List (NodeId × List CSigShare)
  | [] => [(node, [share])]
  | entry :: rest =>
    if entry.1 = node then (node, entry.2 ++ [share]) :: rest
    else entry :: emplaceShare node share rest

/-- The loop of `CollectPendingSigSharesToVerify` over the nodes, one share at a time.  The first
argument bounds the rounds. -/
def collectLoop (order : MapOrder) (maxUniqueSessions : Nat) : Nat -> List NodeId ->
    List (NodeId × Uint256) -> List (NodeId × List CSigShare) -> SigSharesState ->
    List (NodeId × List CSigShare) × SigSharesState
  | 0, _, _, ret, state => (ret, state)
  | _, [], _, ret, state => (ret, state)
  | rounds + 1, node :: others, uniqueSignHashes, ret, state =>
    if maxUniqueSessions <= uniqueSignHashes.length then (ret, state)
    else
      match order.first (state.pendingIncomingSigShares node) with
      | none => collectLoop order maxUniqueSessions rounds others uniqueSignHashes ret state
      | some share =>
        let alreadyHave := hasShare env state.sigShares (env.key share)
        let left := eraseShare env (state.pendingIncomingSigShares node) (env.key share)
        collectLoop order maxUniqueSessions rounds (if left.isEmpty then others else others ++ [node])
          (if alreadyHave then uniqueSignHashes else uniqueSignHashes.insert (node, env.signHash share))
          (if alreadyHave then ret else emplaceShare node share ret)
          { state with
            pendingIncomingSigShares := Function.update state.pendingIncomingSigShares node left }

/-- `CollectPendingSigSharesToVerify`, in the order in which the result is then passed through. -/
def collectPendingSigSharesToVerify (order : MapOrder) (maxUniqueSessions : Nat)
    (state : SigSharesState) :
    List (NodeId × List CSigShare) × SigSharesState :=
  let rounds := order.nodes.length + (order.nodes.map fun node => (state.pendingIncomingSigShares node).length).sum
  let collected := collectLoop env order maxUniqueSessions rounds order.nodes [] [] state
  (if order.byNodes.isPerm collected.1 then order.byNodes else collected.1, collected.2)

/-- The quorums of all shares are found, which is asserted. -/
def quorumsFound (byNodes : List (NodeId × List CSigShare)) : Bool :=
  byNodes.all fun entry =>
    entry.2.all fun share => (env.getQuorum share.llmqType share.quorumHash).isSome

/-- Push the shares of a node.  The loop ends at a signature that does not decode, and the node is
banned.  There is no result when an assertion fails. -/
def pushShares (view : RecoveredView) (node : NodeId) :
    List CSigShare -> CBLSBatchVerifier NodeId SigShareKey -> Option (CBLSBatchVerifier NodeId SigShareKey × Bool)
  | [], verifier => some (verifier, false)
  | share :: rest, verifier =>
    if view.whenCollected share then pushShares view node rest verifier
    else if !env.curve.scheme.isValidSignature share.sigShare then some (verifier, true)
    else
      match env.getQuorum share.llmqType share.quorumHash with
      | none => none
      | some quorum =>
        match verifier.pushMessage env.curve node (env.messageOf quorum share) with
        | none => none
        | some pushed => pushShares view node rest pushed

def pushAll (view : RecoveredView) :
    List (NodeId × List CSigShare) -> CBLSBatchVerifier NodeId SigShareKey ->
    SigSharesState -> Option (CBLSBatchVerifier NodeId SigShareKey × SigSharesState)
  | [], verifier, state => some (verifier, state)
  | entry :: rest, verifier, state =>
    match pushShares env view entry.1 entry.2 verifier with
    | none => none
    | some (pushed, ban) => pushAll view rest pushed (if ban then state.banNode entry.1 else state)

variable (quorum : CQuorum)

def tryRecoverSig (share : CSigShare) (state : SigSharesState) : SigSharesState :=
  if view.whenRecovering share then state
  else
    let signHash := env.buildSignHash quorum.type quorum.quorumHash share.id share.msgHash
    let used := (state.sigShares.filter fun other => env.signHash other == signHash).take quorum.threshold
    if used.length < quorum.threshold then state
    else
      let tried := { state with interpolated := state.interpolated ++ [used] }
      match env.recover (used.map fun other =>
        (other.sigShare, (quorum.members[other.quorumMember.toNat]?).getD 0)) with
      | none => tried
      | some recoveredSig =>
        let counted := { tried with recoveredSigsCounter := tried.recoveredSigsCounter + 1 }
        -- Only one in a hundred is verified.
        if tried.recoveredSigsCounter % 100 = 0 /\
          env.curve.verifyInsecure quorum.quorumPublicKey signHash recoveredSig = false then counted
        else counted.removeSigSharesForSession env signHash

def processSigShare (state : SigSharesState) (share : CSigShare) : SigSharesState :=
  if view.whenProcessed share then state
  else if hasShare env state.sigShares (env.key share) then state
  else
    let added := { state with sigShares := state.sigShares ++ [share] }
    let sigShareCount := (added.sigShares.filter fun other => env.signHash other == env.signHash share).length
    if quorum.threshold <= sigShareCount then tryRecoverSig env view quorum share added else added

def processShares (view : RecoveredView) : List CSigShare -> SigSharesState -> SigSharesState
  | [], state => state
  | share :: rest, state =>
    match env.getQuorum share.llmqType share.quorumHash with
    | none => processShares view rest state
    | some quorum => processShares view rest (state.processSigShare env view quorum share)

/-- The loop over all nodes, of which those with bad shares are banned. -/
def processNodes (view : RecoveredView) (badSources : List NodeId) :
    List (NodeId × List CSigShare) -> SigSharesState -> SigSharesState
  | [], state => state
  | entry :: rest, state =>
    if entry.1 ∈ badSources then processNodes view badSources rest (state.banNode entry.1)
    else processNodes view badSources rest (processShares env view entry.2 state)

/-- `ProcessPendingSigShares`.  When an assertion fails, nothing is stored any more. -/
def processPendingSigShares (order : MapOrder) (state : SigSharesState) : SigSharesState :=
  let collected := state.collectPendingSigSharesToVerify env order 32
  if !quorumsFound env collected.1 then collected.2
  else
    match pushAll env view collected.1 { secureVerification := false, perMessageFallback := true } collected.2 with
    | none => collected.2
    | some (verifier, pushed) =>
      processNodes env view (verifier.verify env.curve).badSources collected.1 pushed

def createSigShare (id msgHash : Uint256) : Option CSigShare :=
  (env.sign quorum (env.buildSignHash quorum.type quorum.quorumHash id msgHash)).map fun sig =>
    { llmqType := quorum.type, quorumHash := quorum.quorumHash,
      quorumMember := env.memberIndex quorum, id, msgHash, sigShare := sig }

/-- `SignPendingSigShares`, for one signature that is wanted. -/
def signPendingSigShare (id msgHash : Uint256) (state : SigSharesState) : SigSharesState :=
  match createSigShare env quorum id msgHash with
  | none => state
  | some share =>
    if env.curve.scheme.isValidSignature share.sigShare then
      ({ state with created := state.created ++ [share] }).processSigShare env view quorum share
    else state

end SigSharesState
end StakeCubeCoin.Llmq
