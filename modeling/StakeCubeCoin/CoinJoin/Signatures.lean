import StakeCubeCoin.CoinJoin.SessionSteps
import StakeCubeCoin.Library.Trace

namespace StakeCubeCoin.CoinJoin

open Primitives Script List CCoinJoinServer

/-!
# Signatures of the final transaction

`AddScriptSig` writes a script into the final transaction before it offers it to the
entries, and verifies it against the script of the entry's input.  That script is in memory
only and the server never fills it in, so every script that evaluates to true on its own
passes, and it is the entries alone that keep a second script for an input out.
-/

/-! ## A recorded signature is overwritten -/

def HasSignature (server : CCoinJoinServer) (txin : CTxIn) : Prop :=
  ∃ txdsin ∈ poolInputs server.vecEntries, txdsin.fHasSig = true /\
    sameInput txdsin.toCTxIn txin = true

/-- A call gets as far as writing its script. -/
def Writes (env : ServerEnv) (server : CCoinJoinServer) (txin : CTxIn) : Prop :=
  hasScriptSig txin.scriptSig server = false /\ isInputScriptSigValid env txin server = true

/-- A call keeps the scripts of the inputs that have a signature, and a call that is refused
changes nothing. -/
structure KeepsSignatures (env : ServerEnv) (server : CCoinJoinServer) (txin : CTxIn) : Prop where
  recorded : ∀ (index : Nat) (input : CTxIn),
    server.finalMutableTransaction.vin[index]? = some input -> HasSignature server input ->
      (addScriptSig env txin server).1.finalMutableTransaction.vin[index]? = some input
  refused : (addScriptSig env txin server).2 = false ->
    (addScriptSig env txin server).1.finalMutableTransaction = server.finalMutableTransaction /\
      (addScriptSig env txin server).1.vecEntries = server.vecEntries

/-- A script that the server takes for valid, for an input that has a signature, other than
the one the final transaction has there. -/
structure Overwrites (env : ServerEnv) (server : CCoinJoinServer) (txin : CTxIn) : Prop where
  writes : Writes env server txin
  signed : HasSignature server txin
  differs : ∃ input ∈ server.finalMutableTransaction.vin, sameInput input txin = true /\
    input.scriptSig ≠ txin.scriptSig

section

variable {env : ServerEnv} {server : CCoinJoinServer} {txin : CTxIn}

/-- A call either stops at its checks or writes. -/
theorem addScriptSig_cases (env : ServerEnv) (server : CCoinJoinServer) (txin : CTxIn) :
    (¬Writes env server txin /\ addScriptSig env txin server = (server, false)) \/
      (Writes env server txin /\ addScriptSig env txin server = ({ server with
          finalMutableTransaction := writeScriptSig txin server.finalMutableTransaction
          vecEntries := (signEntries txin server.vecEntries).1 }, (signEntries txin server.vecEntries).2)) := by
  unfold addScriptSig Writes
  cases repeated : hasScriptSig txin.scriptSig server with
  | true => exact .inl ⟨fun both => Bool.noConfusion both.1, rfl⟩
  | false =>
    cases valid : isInputScriptSigValid env txin server with
    | false => exact .inl ⟨fun both => Bool.noConfusion both.2, rfl⟩
    | true => exact .inr ⟨⟨rfl, rfl⟩, rfl⟩

theorem rewritten_eq_self {txinNew input : CTxIn}
    (same : sameInput input txinNew = true -> input.scriptSig = txinNew.scriptSig) :
    rewritten txinNew input = input := by
  unfold rewritten
  split
  · next named =>
    rw [<- same named]
  · rfl

theorem SessionWellFormed.mem_pool (wellFormed : SessionWellFormed env server) {input : CTxIn}
    (member : input ∈ server.finalMutableTransaction.vin) :
    ∃ txdsin ∈ poolInputs server.vecEntries, sameInput txdsin.toCTxIn input = true := by
  by_cases signing : server.nState = .SIGNING
  · have named := (wellFormed.merged signing).mem_iff.mp (mem_map_of_mem member)
    obtain ⟨txdsin, present, same⟩ := mem_map.mp named
    exact ⟨txdsin, present, sameInput_iff.mpr same⟩
  · rw [wellFormed.noInputs signing] at member
    cases member

theorem sameInput_symm {first second : CTxIn} (same : sameInput first second = true) :
    sameInput second first = true :=
  sameInput_iff.mpr (sameInput_iff.mp same).symm

theorem sameInput_trans {first second third : CTxIn} (same : sameInput first second = true)
    (other : sameInput second third = true) : sameInput first third = true :=
  sameInput_iff.mpr ((sameInput_iff.mp same).trans (sameInput_iff.mp other))

theorem Overwrites.not_keeps (overwrites : Overwrites env server txin) :
    ¬KeepsSignatures env server txin := by
  intro keeps
  obtain ⟨input, member, named, differs⟩ := overwrites.differs
  obtain ⟨txdsin, present, has, signed⟩ := overwrites.signed
  obtain ⟨index, found⟩ := mem_iff_getElem?.mp member
  have kept := keeps.recorded index input found
    ⟨txdsin, present, has, sameInput_trans signed (sameInput_symm named)⟩
  rcases addScriptSig_cases env server txin with ⟨stopped, _⟩ | ⟨_, written⟩
  · exact stopped overwrites.writes
  rw [written] at kept
  change (server.finalMutableTransaction.vin.map (rewritten txin))[index]? = some input at kept
  rw [List.getElem?_map, found] at kept
  have same := Option.some.inj kept
  unfold rewritten at same
  rw [if_pos named] at same
  exact differs (congrArg CTxIn.scriptSig same).symm

theorem SessionWellFormed.keepsSignatures (wellFormed : SessionWellFormed env server)
    (harmless : ¬Overwrites env server txin) : KeepsSignatures env server txin := by
  rcases addScriptSig_cases env server txin with ⟨_, stopped⟩ | ⟨writes, written⟩
  · constructor
    · rw [stopped]
      exact fun _ _ found _ => found
    · rw [stopped]
      exact fun _ => ⟨rfl, rfl⟩
  · have agrees : ∀ input ∈ server.finalMutableTransaction.vin, HasSignature server txin ->
      sameInput input txin = true -> input.scriptSig = txin.scriptSig := by
      intro input member signed named
      by_contra differs
      exact harmless ⟨writes, signed, input, member, named, differs⟩
    constructor
    · rw [written]
      intro index input found signed
      change (server.finalMutableTransaction.vin.map (rewritten txin))[index]? = some input
      rw [List.getElem?_map, found]
      refine congrArg some (rewritten_eq_self fun named => ?_)
      obtain ⟨txdsin, present, has, same⟩ := signed
      exact agrees input (mem_of_getElem? found) ⟨txdsin, present, has, sameInput_trans same named⟩ named
    · rw [written]
      intro refused
      obtain ⟨effect, unchanged⟩ := inputSigned_signEntries txin server.vecEntries
      refine ⟨?_, unchanged refused⟩
      -- An input that is named is in the pool, where only a signature can have kept the script out.
      have vin : server.finalMutableTransaction.vin.map (rewritten txin) = server.finalMutableTransaction.vin := by
        refine (map_congr_left fun input member => ?_).trans (map_id _)
        refine rewritten_eq_self fun named => ?_
        obtain ⟨txdsin, present, same⟩ := wellFormed.mem_pool member
        obtain ⟨first, among, firstNamed, has⟩ := effect.refused refused txdsin present (sameInput_trans same named)
        exact agrees input member ⟨first, among, has, firstNamed⟩ named
      change { server.finalMutableTransaction with
        vin := server.finalMutableTransaction.vin.map (rewritten txin) } = server.finalMutableTransaction
      rw [vin]

theorem HasSignature.sign {input : CTxIn} (signed : HasSignature server input) :
    HasSignature (addScriptSig env txin server).1 input := by
  rcases addScriptSig_cases env server txin with ⟨_, stopped⟩ | ⟨_, written⟩
  · rw [stopped]
    exact signed
  · rw [written]
    obtain ⟨txdsin, present, has, same⟩ := signed
    exact ⟨txdsin, (inputSigned_signEntries txin server.vecEntries).1.kept txdsin present has, has, same⟩

end

/-- The scripts of the signed inputs of the first server are those of the second.  They also stay at
their places in the final transaction. -/
def SignaturesStay (server other : CCoinJoinServer) : Prop :=
  ∀ (index : Nat) (input : CTxIn), server.finalMutableTransaction.vin[index]? = some input ->
    HasSignature server input ->
    other.finalMutableTransaction.vin[index]? = some input /\ HasSignature other input

section

variable {env : ServerEnv} {around : Surroundings} {server other third : CCoinJoinServer}

theorem SignaturesStay.of_same (same : SameSession server other) : SignaturesStay server other := by
  intro index input found signed
  constructor
  · rw [same.finalMutableTransaction]
    exact found
  · unfold HasSignature
    rw [same.vecEntries]
    exact signed

theorem SignaturesStay.trans (first : SignaturesStay server other)
    (second : SignaturesStay other third) :
    SignaturesStay server third := by
  intro index input found signed
  obtain ⟨middle, kept⟩ := first index input found signed
  exact second index input middle kept

/-- A list of inputs none of which overwrites keeps what is recorded. -/
theorem SessionWellFormed.addScriptSigs (wellFormed : SessionWellFormed env server)
    (vecTxIn : List CTxIn)
    (harmless : ∀ call ∈ scriptSigCalls env server vecTxIn, ¬Overwrites env call.1 call.2) :
    SignaturesStay server (addScriptSigs env vecTxIn server).1 := by
  induction vecTxIn generalizing server with
  | nil => exact .of_same (.refl server)
  | cons txin _ ih =>
    have first : SignaturesStay server (addScriptSig env txin server).1 := by
      intro index input found signed
      have keeps := wellFormed.keepsSignatures (harmless (server, txin) (.head _))
      exact ⟨keeps.recorded index input found signed, signed.sign⟩
    have next := wellFormed.sign txin
    rw [addScriptSigs]
    split
    · next signed outcome =>
      rw [outcome] at first next
      refine first.trans (ih next fun call member => harmless call ?_)
      rw [scriptSigCalls, outcome]
      exact .tail _ member
    · next _ outcome =>
      rw [outcome] at first
      exact first

/-- The session goes on as it was, or is over. -/
def Continues (server other : CCoinJoinServer) : Prop :=
  SameSession server other \/ other.vecEntries = []

theorem continues_relayStatus (nStatusUpdate : PoolStatusUpdate) (server : CCoinJoinServer) :
    Continues server (relayStatus around nStatusUpdate server) := by
  have told := @sameSession_pushStatusToAll around nStatusUpdate .MSG_NOERR server
  unfold relayStatus
  dsimp only
  split
  · exact .inl told
  split
  · exact .inr rfl
  · exact .inl (told.trans (sameSession_pushStatusToAll .REJECTED .MSG_NOERR _))

/-- From the signing stage, a look at the pool leaves the session alone or ends it. -/
theorem continues_checkPool (signing : server.nState = .SIGNING) :
    Continues server (checkPool env around server) := by
  have notAccepting : server.nState ≠ .ACCEPTING_ENTRIES := by
    rw [signing]
    decide
  unfold checkPool
  rw [if_neg fun both => notAccepting both.1, if_neg fun both => notAccepting both.1]
  split
  · unfold commitFinalTransaction
    split <;> exact .inr rfl
  · exact .inl (.refl server)

theorem nState_addScriptSigs (vecTxIn : List CTxIn) (server : CCoinJoinServer) :
    (addScriptSigs env vecTxIn server).1.nState = server.nState := by
  induction vecTxIn generalizing server with
  | nil => rfl
  | cons txin _ ih =>
    have first : (addScriptSig env txin server).1.nState = server.nState := by
      rcases addScriptSig_cases env server txin with ⟨_, stopped⟩ | ⟨_, written⟩
      · rw [stopped]
      · rw [written]
    rw [addScriptSigs]
    split
    · next signed outcome =>
      rw [outcome] at first
      exact (ih signed).trans first
    · next _ outcome =>
      rw [outcome] at first
      exact first

/-- A whole message none of whose inputs overwrites: recorded signatures stay, or the session
is over. -/
theorem SessionWellFormed.processDSSIGNFINALTX (wellFormed : SessionWellFormed env server)
    (pfrom : Peer) (vecTxIn : List CTxIn)
    (harmless : ∀ call ∈ scriptSigCalls env server vecTxIn, ¬Overwrites env call.1 call.2) :
    (processDSSIGNFINALTX env around pfrom vecTxIn server).vecEntries = [] \/
      SignaturesStay server (processDSSIGNFINALTX env around pfrom vecTxIn server) := by
  by_cases signing : server.nState = .SIGNING
  · have kept := wellFormed.addScriptSigs vecTxIn harmless
    have stage := @nState_addScriptSigs env vecTxIn server
    unfold CCoinJoinServer.processDSSIGNFINALTX
    split
    · exact .inr (.of_same (.refl server))
    split
    · next after outcome =>
      rw [outcome] at kept stage
      rcases @continues_checkPool env around after (stage.trans signing) with same | finished
      · exact .inr (kept.trans (.of_same same))
      · exact .inl finished
    · next left outcome =>
      rw [outcome] at kept
      rcases @continues_relayStatus around .REJECTED left with same | finished
      · exact .inr (kept.trans (.of_same same))
      · exact .inl finished
  · refine .inr fun index input found _ => ?_
    rw [wellFormed.noInputs signing] at found
    cases found

end

namespace SignatureSample

/-- Hashes that all have the same bytes, and signatures that are all good. -/
def crypto : Crypto where
  hash := fun op _ => List.replicate op.size 7
  length_hash := fun _ _ => List.length_replicate
  checkLowS := fun _ => true
  verify := fun _ _ _ => true

/-- Every outpoint names one thousandth of a coin that pays to the hash above. -/
def env : ServerEnv where
  crypto := crypto
  outputOf := fun _ => ⟨COIN / 1000 + 1, payToPubKeyHash (List.replicate 20 7)⟩
  nPoolMinParticipants := 3
  nPoolMaxParticipants := 5

def around (now : Int) : Surroundings where
  now := now
  connected := fun _ => true
  available := fun _ => true
  isCollateralValid := fun _ => true
  acceptFinalTransaction := fun _ => true
  acceptCollateral := fun _ => true
  draw := fun _ => 50
  sessionDraw := 0
  shuffled := 0

variable (number : Nat)

def peer : Peer where
  addr := { m_net := 1, m_addr := [10, 0, 0, UInt8.ofNat number], port := 40000 }
  nVersion := MIN_COINJOIN_PEER_PROTO_VERSION

def collateral : CTransaction where
  vin := []
  vout := []
  hash := BitVec.ofNat 256 (100 + number)

def prevout : COutPoint where
  hash := BitVec.ofNat 256 number
  n := 0

/-- Three participants join, the queue times out, and each sends one input and one output. -/
def toSigning : List ServerEvent :=
  [⟨around 0, .dsaccept (peer 1) ⟨16, collateral 1⟩⟩,
    ⟨around 0, .dsaccept (peer 2) ⟨16, collateral 2⟩⟩,
    ⟨around 0, .dsaccept (peer 3) ⟨16, collateral 3⟩⟩, ⟨around 30, .checkForCompleteQueue⟩] ++
  [3, 1, 2].map fun number => ⟨around 31, .dsvin (peer number)
    { vecTxDSIn := [{ prevout := prevout number }]
      vecTxOut := [⟨COIN / 1000 + 1, payToPubKeyHash (List.replicate 20 (UInt8.ofNat number))⟩]
      txCollateral := collateral number }⟩

def signature : Valtype := [0x30, 6, 2, 1, 1, 2, 1, 1, 1]
def pubKey : Valtype := 2 :: List.replicate 32 (UInt8.ofNat number)

def signedInput : CTxIn where
  prevout := prevout number
  scriptSig := pushVector signature ++ pushVector (pubKey number)

def forgedInput : CTxIn where
  prevout := prevout number
  scriptSig := [OP_1]

def toOneSigned : List ServerEvent :=
  toSigning ++ [⟨around 32, .dssignfinaltx (peer 1) [signedInput 1]⟩]

def oneSigned : CCoinJoinServer :=
  toOneSigned.foldl (serverStep env) {}

end SignatureSample

/-- In every reachable state `AddScriptSig` keeps the recorded signatures, and changes nothing when
it is refused, exactly if it does not overwrite; a message without such a call keeps them until the
session is over. -/
theorem recorded_signatures_stay_iff (env : ServerEnv) (events : List ServerEvent)
    (vecTxIn : List CTxIn) :
    (∀ call ∈ scriptSigCalls env (events.foldl (serverStep env) {}) vecTxIn,
      (KeepsSignatures env call.1 call.2 <-> ¬Overwrites env call.1 call.2)) /\
    ((∀ call ∈ scriptSigCalls env (events.foldl (serverStep env) {}) vecTxIn,
      ¬Overwrites env call.1 call.2) -> ∀ (around : Surroundings) (pfrom : Peer),
        (processDSSIGNFINALTX env around pfrom vecTxIn (events.foldl (serverStep env) {})).vecEntries = [] \/
          SignaturesStay (events.foldl (serverStep env) {})
            (processDSSIGNFINALTX env around pfrom vecTxIn (events.foldl (serverStep env) {}))) := by
  have wellFormed : SessionWellFormed env (events.foldl (serverStep env) {}) :=
    List.foldlRecOn events _ (.initial env) fun _ wellFormed event _ => wellFormed.serverStep event
  refine ⟨fun call member => ?_, fun harmless around pfrom => ?_⟩
  · exact ⟨fun keeps overwrites => overwrites.not_keeps keeps,
      (wellFormed.calls vecTxIn call member).keepsSignatures⟩
  · exact wellFormed.processDSSIGNFINALTX pfrom vecTxIn harmless

open SignatureSample

/-- Anybody can send `OP_1` for an input that has been signed: the call is refused, and the
signature in the final transaction is gone. -/
theorem refused_script_overwrites_signature : ¬KeepsSignatures env oneSigned (forgedInput 1) /\
      (addScriptSig env (forgedInput 1) oneSigned).2 = false /\
      oneSigned.finalMutableTransaction.vin[0]? = some (signedInput 1) /\
      (addScriptSig env (forgedInput 1) oneSigned).1.finalMutableTransaction.vin[0]? = some (forgedInput 1) := by
  have refused : (addScriptSig env (forgedInput 1) oneSigned).2 = false := by decide +kernel
  have before :
    oneSigned.finalMutableTransaction.vin[0]? = some (signedInput 1) := by decide +kernel
  have after : (addScriptSig env (forgedInput 1) oneSigned).1.finalMutableTransaction.vin[0]? =
    some (forgedInput 1) := by decide +kernel
  refine ⟨fun keeps => ?_, refused, before, after⟩
  rw [(keeps.refused refused).1] at after
  exact absurd after (by decide +kernel)

/-- The second participant's signature leaves that of the first one in place. -/
theorem recorded_signatures_stay_second :
    (processDSSIGNFINALTX env (around 33) (peer 2) [signedInput 2] oneSigned).vecEntries = [] \/
      SignaturesStay oneSigned (processDSSIGNFINALTX env (around 33) (peer 2) [signedInput 2] oneSigned) := by
  refine (recorded_signatures_stay_iff env toOneSigned [signedInput 2]).2 ?_ (around 33) (peer 2)
  intro call member overwrites
  obtain ⟨txdsin, present, has, same⟩ := overwrites.signed
  have only : ∀ call ∈ scriptSigCalls env oneSigned [signedInput 2],
    ∀ txdsin ∈ poolInputs call.1.vecEntries, txdsin.fHasSig = true ->
      sameInput txdsin.toCTxIn call.2 = false := by
    decide +kernel
  exact Bool.noConfusion ((only call member txdsin present has).symm.trans same)

end StakeCubeCoin.CoinJoin
