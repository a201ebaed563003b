import StakeCubeCoin.Evo.MNList
import StakeCubeCoin.Script.PubKeyHash

namespace StakeCubeCoin.CoinJoin

open Primitives Script Evo

/-!
# The CoinJoin server

`CCoinJoinServer` of `coinjoin/server.cpp` with the session it inherits from
`coinjoin/coinjoin.{h,cpp}`.  A masternode collects participants (`DSACCEPT`), then their
inputs and outputs (`DSVIN`), merges them into one transaction, collects the signatures of
its inputs (`DSSIGNFINALTX`) and hands it to the mempool.  Timers may end each stage.

What the server asks of the rest of the node when it handles an event (the time, who is
connected, which outputs can be spent, the mempool, random draws) comes with the event.  The
output an outpoint names is fixed: it is part of the transaction whose hash the outpoint
holds.  Log lines, relayed queue announcements and the list of queues are left out; whether
a new queue may be opened is asked of the surroundings.
-/

inductive PoolMessage where
  | ERR_ALREADY_HAVE
  | ERR_DENOM
  | ERR_ENTRIES_FULL
  | ERR_FEES
  | ERR_INVALID_COLLATERAL
  | ERR_INVALID_INPUT
  | ERR_INVALID_SCRIPT
  | ERR_INVALID_TX
  | ERR_MAXIMUM
  | ERR_MN_LIST
  | ERR_MODE
  | ERR_QUEUE_FULL
  | ERR_RECENT
  | ERR_SESSION
  | ERR_MISSING_TX
  | ERR_VERSION
  | MSG_NOERR
  | MSG_SUCCESS
  | MSG_ENTRIES_ADDED
  | ERR_SIZE_MISMATCH
  deriving DecidableEq

/-- `PoolState`; the server never enters `POOL_STATE_ERROR`. -/
inductive PoolState where
  | IDLE
  | QUEUE
  | ACCEPTING_ENTRIES
  | SIGNING
  deriving DecidableEq

inductive PoolStatusUpdate where
  | REJECTED
  | ACCEPTED
  deriving DecidableEq

def COINJOIN_QUEUE_TIMEOUT : Int := 30
def COINJOIN_SIGNING_TIMEOUT : Int := 15
def COINJOIN_ENTRY_MAX_SIZE : Nat := 9
def MIN_COINJOIN_PEER_PROTO_VERSION : Nat := 70213

def COIN : CAmount := 100000000

def standardDenominations : List CAmount :=
  [10 * COIN + 10000, 1 * COIN + 1000, COIN / 10 + 100, COIN / 100 + 10, COIN / 1000 + 1]

def amountToDenomination (nInputAmount : CAmount) : Int :=
  match standardDenominations.idxOf? nInputAmount with
  | some i => 2 ^ i
  | none => 0

def denominationToAmount (nDenom : Int) : CAmount :=
  if nDenom = 0 then 0
  else if 2 ^ standardDenominations.length <= nDenom \/ nDenom < 0 then -1
  else if nDenom.toNat &&& (nDenom.toNat - 1) ≠ 0 then -2
  else
    match (List.range standardDenominations.length).find? fun i => decide (nDenom.toNat &&& 2 ^ i ≠ 0) with
    | some i => standardDenominations.getD i (-3)
    | none => -3

def isValidDenomination (nDenom : Int) : Bool :=
  decide (0 < denominationToAmount nDenom)

/-- `CTxDSIn`.  The fields beside those of the input are in memory only: they are not in
messages. -/
structure CTxDSIn extends CTxIn where
  prevPubKey : CScript := []
  fHasSig : Bool := false
  deriving DecidableEq

structure CCoinJoinEntry where
  vecTxDSIn : List CTxDSIn
  vecTxOut : List CTxOut
  txCollateral : CTransaction
  addr : CService
  deriving DecidableEq

/-- The contents of a `DSVIN` message. -/
structure EntryMessage where
  vecTxDSIn : List CTxIn
  vecTxOut : List CTxOut
  txCollateral : CTransaction
  deriving DecidableEq

/-- The entry that is read from a message of a peer: what is in memory only has its default. -/
def EntryMessage.entry (message : EntryMessage) (addr : CService) : CCoinJoinEntry where
  vecTxDSIn := message.vecTxDSIn.map fun txin => { toCTxIn := txin }
  vecTxOut := message.vecTxOut
  txCollateral := message.txCollateral
  addr := addr

structure CCoinJoinAccept where
  nDenom : Int
  txCollateral : CTransaction
  deriving DecidableEq

/-- Two inputs are the same up to their scripts. -/
def sameInput (first second : CTxIn) : Bool :=
  decide (first.prevout = second.prevout) && decide (first.nSequence = second.nSequence)

/-- The loop of `CCoinJoinEntry::AddScriptSig`: the first input that is named is signed,
unless it is already. -/
def signInput (txin : CTxIn) : List CTxDSIn -> List CTxDSIn × Bool
  | [] => ([], false)
  | txdsin :: rest =>
    if sameInput txdsin.toCTxIn txin then
      if txdsin.fHasSig then (txdsin :: rest, false)
      else ({ txdsin with scriptSig := txin.scriptSig, fHasSig := true } :: rest, true)
    else
      let (later, signed) := signInput txin rest
      (txdsin :: later, signed)

def CCoinJoinEntry.addScriptSig (entry : CCoinJoinEntry) (txin : CTxIn) : CCoinJoinEntry × Bool :=
  let (vecTxDSIn, signed) := signInput txin entry.vecTxDSIn
  ({ entry with vecTxDSIn }, signed)

def poolInputs (vecEntries : List CCoinJoinEntry) : List CTxDSIn :=
  vecEntries.flatMap CCoinJoinEntry.vecTxDSIn

/-! ## Order of the merged transaction -/

/-- `CompareInputBIP69`; the bytes of a hash are compared from the last one, as the digits of
the number they write. -/
def compareInputBIP69 (first second : CTxIn) : Bool :=
  if first.prevout.hash = second.prevout.hash then decide (first.prevout.n < second.prevout.n)
  else decide (first.prevout.hash.toNat < second.prevout.hash.toNat)

/-- `operator<` of scripts: shorter ones come first. -/
def compareScript (first second : CScript) : Bool :=
  if first.length = second.length then decide (first < second)
  else decide (first.length < second.length)

def compareOutputBIP69 (first second : CTxOut) : Bool :=
  decide (first.nValue < second.nValue) ||
    (decide (first.nValue = second.nValue) && compareScript first.scriptPubKey second.scriptPubKey)

/-- `sort` with a comparison. -/
def sortBy {α : Type} (less : α -> α -> Bool) (items : List α) : List α :=
  items.insertionSort fun first second => (!less second first) = true

/-! ## The server and its surroundings -/

/-- What is sent to clients. -/
inductive ServerMessage where
  | DSSTATUSUPDATE (nSessionID : Nat) (nState : PoolState) (nStatusUpdate : PoolStatusUpdate)
    (nMessageID : PoolMessage)
  | DSFINALTX (nSessionID : Nat) (txFinal : CMutableTransaction)
  | DSCOMPLETE (nSessionID : Nat) (nMessageID : PoolMessage)
  deriving DecidableEq

/-- `CCoinJoinServer`, with what it has sent and which collaterals it has consumed, latest
first. -/
structure CCoinJoinServer where
  nState : PoolState := .IDLE
  nSessionID : Nat := 0
  nSessionDenom : Int := 0
  vecEntries : List CCoinJoinEntry := []
  vecSessionCollaterals : List CTransaction := []
  finalMutableTransaction : CMutableTransaction := {}
  nTimeLastSuccessfulStep : Int := 0
  sent : List (CService × ServerMessage) := []
  consumed : List CTransaction := []
  deriving DecidableEq

/-- What never changes: the cryptography, the outputs that outpoints name, and the chain's
bounds for the number of participants. -/
structure ServerEnv where
  crypto : Crypto
  outputOf : COutPoint -> CTxOut
  nPoolMinParticipants : Nat
  nPoolMaxParticipants : Nat

/-- Whether a session can be opened: the lock on the queues may be taken by another thread,
and the last queue may be too recent. -/
inductive QueueAnswer where
  | busy
  | recent
  | free
  deriving DecidableEq

/-- What the server asks of the node while it handles an event.  `available` is that the output
is unspent in the chain, or in the mempool and locked; `draw` numbers the draws of
`GetRandInt(100)`. -/
structure Surroundings where
  now : Int
  connected : CService -> Bool
  isBlockchainSynced : Bool := true
  isValidMasternode : Bool := true
  queueAnswer : QueueAnswer := .free
  available : COutPoint -> Bool
  isCollateralValid : CTransaction -> Bool
  acceptFinalTransaction : CMutableTransaction -> Bool
  acceptCollateral : CTransaction -> Bool
  draw : Nat -> Nat
  sessionDraw : Fin 999999
  shuffled : Nat

namespace CCoinJoinServer

variable (env : ServerEnv) (around : Surroundings) (server : CCoinJoinServer)

def setNull : CCoinJoinServer :=
  { server with
    vecSessionCollaterals := []
    nState := .IDLE
    nSessionID := 0
    nSessionDenom := 0
    vecEntries := []
    finalMutableTransaction := { server.finalMutableTransaction with vin := [], vout := [] }
    nTimeLastSuccessfulStep := around.now }

def setState (nStateNew : PoolState) (server : CCoinJoinServer) : CCoinJoinServer :=
  { server with nTimeLastSuccessfulStep := around.now, nState := nStateNew }

def hasTimedOut : Bool :=
  if server.nState = .IDLE then false
  else
    let nTimeout := if server.nState = .SIGNING then COINJOIN_SIGNING_TIMEOUT else COINJOIN_QUEUE_TIMEOUT
    decide (nTimeout <= around.now - server.nTimeLastSuccessfulStep)

def isSessionReady : Bool :=
  match server.nState with
  | .QUEUE =>
    decide (env.nPoolMaxParticipants <= server.vecSessionCollaterals.length) ||
      (hasTimedOut around server && decide (env.nPoolMinParticipants <= server.vecSessionCollaterals.length))
  | .ACCEPTING_ENTRIES => true
  | _ => false

/-! ### Messages and fees -/

def send (addr : CService) (message : ServerMessage) (server : CCoinJoinServer) : CCoinJoinServer :=
  { server with sent := (addr, message) :: server.sent }

def pushStatus (addr : CService) (nStatusUpdate : PoolStatusUpdate) (nMessageID : PoolMessage)
    (server : CCoinJoinServer) : CCoinJoinServer :=
  server.send addr (.DSSTATUSUPDATE server.nSessionID server.nState nStatusUpdate nMessageID)

variable (nStatusUpdate : PoolStatusUpdate)

/-- `PushStatus` to every participant that is connected. -/
def pushStatusToAll (nMessageID : PoolMessage) (server : CCoinJoinServer) : CCoinJoinServer :=
  (server.vecEntries.filter fun entry => around.connected entry.addr).foldl
    (fun server entry => server.pushStatus entry.addr nStatusUpdate nMessageID) server

/-- `RelayStatus`.  The session is given up if no participant is left. -/
def relayStatus (server : CCoinJoinServer) : CCoinJoinServer :=
  let nDisconnected := server.vecEntries.countP fun entry => !around.connected entry.addr
  let told := pushStatusToAll around nStatusUpdate .MSG_NOERR server
  if nDisconnected = 0 then told
  else
    let warned := pushStatusToAll around .REJECTED .MSG_NOERR told
    if nDisconnected = warned.vecEntries.length then setNull around warned else warned

/-- A message to the participants one after another, until one is not connected. -/
def relayEach (message : ServerMessage) : List CCoinJoinEntry -> CCoinJoinServer -> CCoinJoinServer
  | [], server => server
  | entry :: rest, server =>
    if around.connected entry.addr then relayEach message rest (server.send entry.addr message)
    else relayStatus around .REJECTED server

def relayFinalTransaction : CCoinJoinServer :=
  relayEach around (.DSFINALTX server.nSessionID server.finalMutableTransaction)
    server.vecEntries server

def relayCompletedTransaction (nMessageID : PoolMessage) (server : CCoinJoinServer) :
    CCoinJoinServer :=
  relayEach around (.DSCOMPLETE server.nSessionID nMessageID) server.vecEntries server

def consumeCollateral (txref : CTransaction) (server : CCoinJoinServer) : CCoinJoinServer :=
  if around.acceptCollateral txref then { server with consumed := txref :: server.consumed }
  else server

/-- The offenders of `ChargeFees`: collaterals without an entry while entries are accepted, and that
of an entry once for each unsigned input. -/
def offenders : List CTransaction :=
  match server.nState with
  | .ACCEPTING_ENTRIES =>
    server.vecSessionCollaterals.filter fun txCollateral =>
      !server.vecEntries.any fun entry => decide (entry.txCollateral.hash = txCollateral.hash)
  | .SIGNING =>
    server.vecEntries.flatMap fun entry =>
      (entry.vecTxDSIn.filter fun txdsin => !txdsin.fHasSig).map fun _ => entry.txCollateral
  | _ => []

/-- `ChargeFees`.  The difference of sizes is unsigned. -/
def chargeFees : CCoinJoinServer :=
  let vecOffendersCollaterals := offenders server
  if 33 < around.draw 0 then server
  else if vecOffendersCollaterals = [] then server
  else if (server.vecSessionCollaterals.length + 2 ^ 64 - 1) % 2 ^ 64 <= vecOffendersCollaterals.length /\
    33 < around.draw 1 then server
  else if server.vecSessionCollaterals.length <= vecOffendersCollaterals.length then server
  else
    match vecOffendersCollaterals[around.shuffled % vecOffendersCollaterals.length]? with
    | none => server
    | some txCollateral => consumeCollateral around txCollateral server

/-- The loop of `ChargeRandomFees`, which ends at the first draw above ten. -/
def chargeRandom : Nat -> List CTransaction -> CCoinJoinServer -> CCoinJoinServer
  | _, [], server => server
  | draw, txCollateral :: rest, server =>
    if 10 < around.draw draw then server
    else chargeRandom (draw + 1) rest (consumeCollateral around txCollateral server)

def chargeRandomFees : CCoinJoinServer :=
  chargeRandom around 2 server.vecSessionCollaterals server

/-! ### The final transaction -/

variable (vecEntries : List CCoinJoinEntry)

def mergedTransaction : CMutableTransaction where
  vin := (poolInputs vecEntries).map CTxDSIn.toCTxIn
  vout := vecEntries.flatMap CCoinJoinEntry.vecTxOut

/-- The transaction that `CreateFinalTransaction` builds: inputs and outputs are sorted. -/
def sortedTransaction : CMutableTransaction :=
  let txNew := mergedTransaction vecEntries
  { txNew with vin := sortBy compareInputBIP69 txNew.vin, vout := sortBy compareOutputBIP69 txNew.vout }

def createFinalTransaction : CCoinJoinServer :=
  let created := { server with finalMutableTransaction := sortedTransaction server.vecEntries }
  relayFinalTransaction around (setState around .SIGNING created)

def commitFinalTransaction : CCoinJoinServer :=
  if !around.acceptFinalTransaction server.finalMutableTransaction then
    relayCompletedTransaction around .ERR_INVALID_TX (setNull around server)
  else
    setNull around (chargeRandomFees around (relayCompletedTransaction around .MSG_SUCCESS server))

def isSignaturesComplete : Bool :=
  (poolInputs server.vecEntries).all CTxDSIn.fHasSig

def checkPool : CCoinJoinServer :=
  if server.nState = .ACCEPTING_ENTRIES /\
    server.vecEntries.length = server.vecSessionCollaterals.length then
    createFinalTransaction around server
  else if server.nState = .ACCEPTING_ENTRIES /\ hasTimedOut around server = true /\
    env.nPoolMinParticipants <= server.vecEntries.length then
    createFinalTransaction around (chargeFees around server)
  else if server.nState = .SIGNING /\ isSignaturesComplete server = true then
    commitFinalTransaction around server
  else server

def checkTimeout : CCoinJoinServer :=
  if hasTimedOut around server then setNull around (chargeFees around server) else server

def checkForCompleteQueue : CCoinJoinServer :=
  if server.nState = .QUEUE /\ isSessionReady env around server = true then
    setState around .ACCEPTING_ENTRIES server
  else server

/-! ### Participants -/

variable (dsa : CCoinJoinAccept)

def isAcceptableDSA : Except PoolMessage Unit :=
  if !isValidDenomination dsa.nDenom then .error .ERR_DENOM
  else if !around.isCollateralValid dsa.txCollateral then .error .ERR_INVALID_COLLATERAL
  else .ok ()

/-- `CreateNewSession`, for a server without a session. -/
def createNewSession (server : CCoinJoinServer) : Except PoolMessage CCoinJoinServer :=
  if server.nState ≠ .IDLE then .error .ERR_MODE
  else do
    isAcceptableDSA around dsa
    let started := { server with nSessionID := around.sessionDraw + 1, nSessionDenom := dsa.nDenom }
    let queued := setState around .QUEUE started
    pure { queued with vecSessionCollaterals := queued.vecSessionCollaterals ++ [dsa.txCollateral] }

/-- `AddUserToExistingSession`.  A session that is ready is refused without a message. -/
def addUserToExistingSession (server : CCoinJoinServer) : Except PoolMessage CCoinJoinServer :=
  if isSessionReady env around server then .error .MSG_NOERR
  else do
    isAcceptableDSA around dsa
    if server.nState ≠ .QUEUE then .error .ERR_MODE
    else if dsa.nDenom ≠ server.nSessionDenom then .error .ERR_DENOM
    else .ok { server with vecSessionCollaterals := server.vecSessionCollaterals ++ [dsa.txCollateral] }

/-- A peer: its address and protocol version. -/
structure Peer where
  addr : CService
  nVersion : Nat

variable (pfrom : Peer)

/-- The last part of `ProcessDSACCEPT`. -/
def acceptParticipant (dsa : CCoinJoinAccept) (server : CCoinJoinServer) : CCoinJoinServer :=
  let result :=
    if server.nSessionID = 0 then createNewSession around dsa server
    else addUserToExistingSession env around dsa server
  match result with
  | .ok accepted => accepted.pushStatus pfrom.addr .ACCEPTED .MSG_NOERR
  | .error nMessageID => server.pushStatus pfrom.addr .REJECTED nMessageID

def processDSACCEPT (dsa : CCoinJoinAccept) (server : CCoinJoinServer) : CCoinJoinServer :=
  if pfrom.nVersion < MIN_COINJOIN_PEER_PROTO_VERSION then
    server.pushStatus pfrom.addr .REJECTED .ERR_VERSION
  else if isSessionReady env around server then
    server.pushStatus pfrom.addr .REJECTED .ERR_QUEUE_FULL
  else if !around.isValidMasternode then server.pushStatus pfrom.addr .REJECTED .ERR_MN_LIST
  else if server.vecSessionCollaterals = [] /\ around.queueAnswer = .busy then server
  else if server.vecSessionCollaterals = [] /\ around.queueAnswer = .recent then
    server.pushStatus pfrom.addr .REJECTED .ERR_RECENT
  else acceptParticipant env around pfrom dsa server

/-! ### Entries -/

/-- A check of `IsValidInOuts` that fails: its message, and whether the collateral is to be
consumed. -/
abbrev InOuts := Except (PoolMessage × Bool)

variable (nSessionDenom : Int) (setScripPubKeys : List CScript)

/-- `checkTxOut`: an output of the session's denomination that pays to a key hash which was
not seen before; `setScripPubKeys` are those seen. -/
def checkTxOut (txout : CTxOut) : InOuts (List CScript) :=
  if amountToDenomination txout.nValue ≠ nSessionDenom then .error (.ERR_DENOM, true)
  else if !CScript.isPayToPublicKeyHash txout.scriptPubKey then .error (.ERR_INVALID_SCRIPT, true)
  else if txout.scriptPubKey ∈ setScripPubKeys then .error (.ERR_ALREADY_HAVE, true)
  else .ok (txout.scriptPubKey :: setScripPubKeys)

/-- An input of an entry: its coin is looked up and checked as an output. -/
def checkTxIn (txin : CTxIn) : InOuts (List CScript) :=
  if txin.prevout.isNull then .error (.ERR_INVALID_INPUT, true)
  else if !around.available txin.prevout then .error (.ERR_MISSING_TX, false)
  else checkTxOut nSessionDenom setScripPubKeys (env.outputOf txin.prevout)

def isValidInOuts (vin : List CTxIn) (vout : List CTxOut) : InOuts Unit :=
  if vin.length ≠ vout.length then .error (.ERR_SIZE_MISMATCH, true)
  else do
    let outs <- vout.foldlM (checkTxOut nSessionDenom) []
    let _ <- vin.foldlM (checkTxIn env around nSessionDenom) outs
    let nFees := (vin.map fun txin => (env.outputOf txin.prevout).nValue).sum - (vout.map CTxOut.nValue).sum
    if nFees ≠ 0 then .error (.ERR_FEES, false) else .ok ()

/-- `AddEntry`: the server afterwards, whether the entry was added, and the message. -/
def addEntry (entry : CCoinJoinEntry) (server : CCoinJoinServer) :
    CCoinJoinServer × Bool × PoolMessage :=
  if server.vecSessionCollaterals.length <= server.vecEntries.length then
    (server, false, .ERR_ENTRIES_FULL)
  else if !around.isCollateralValid entry.txCollateral then (server, false, .ERR_INVALID_COLLATERAL)
  else if COINJOIN_ENTRY_MAX_SIZE < entry.vecTxDSIn.length then
    (consumeCollateral around entry.txCollateral server, false, .ERR_MAXIMUM)
  else if entry.vecTxDSIn.any fun txin =>
    (poolInputs server.vecEntries).any fun txdsin => decide (txdsin.prevout = txin.prevout) then
    (server, false, .ERR_ALREADY_HAVE)
  else
    match isValidInOuts env around server.nSessionDenom (entry.vecTxDSIn.map CTxDSIn.toCTxIn) entry.vecTxOut with
    | .error (nMessageID, fConsumeCollateral) =>
      (if fConsumeCollateral then consumeCollateral around entry.txCollateral server else server, false, nMessageID)
    | .ok () => ({ server with vecEntries := server.vecEntries ++ [entry] }, true, .MSG_ENTRIES_ADDED)

def processDSVIN (message : EntryMessage) (server : CCoinJoinServer) : CCoinJoinServer :=
  if pfrom.nVersion < MIN_COINJOIN_PEER_PROTO_VERSION then
    server.pushStatus pfrom.addr .REJECTED .ERR_VERSION
  else if !isSessionReady env around server then server.pushStatus pfrom.addr .REJECTED .ERR_SESSION
  else
    match addEntry env around (message.entry pfrom.addr) server with
    | (added, true, nMessageID) =>
      relayStatus around .ACCEPTED (checkPool env around (added.pushStatus pfrom.addr .ACCEPTED nMessageID))
    | (kept, false, nMessageID) => kept.pushStatus pfrom.addr .REJECTED nMessageID

/-! ### Signatures -/

/-- The last input of the pool that spends an outpoint, with its position. -/
def lastInput (prevout : COutPoint) (inputs : List CTxDSIn) : Option (CTxDSIn × Nat) :=
  inputs.zipIdx.reverse.find? fun indexed => decide (indexed.1.prevout = prevout)

/-- The transaction that `IsInputScriptSigValid` verifies: the entries in their order, with
the script at one input. -/
def transactionToVerify (nTxInIndex : Nat) (scriptSig : CScript) : CMutableTransaction :=
  let txNew := mergedTransaction server.vecEntries
  { txNew with vin := txNew.vin.modify nTxInIndex fun txin => { txin with scriptSig } }

def isInputScriptSigValid (txin : CTxIn) (server : CCoinJoinServer) : Bool :=
  match lastInput txin.prevout (poolInputs server.vecEntries) with
  | none => false
  | some (txdsin, nTxInIndex) =>
    let txNew := transactionToVerify server nTxInIndex txin.scriptSig
    (verifyScript env.crypto P2SH_STRICTENC (transactionSignatureChecker env.crypto txNew nTxInIndex)
      txin.scriptSig txdsin.prevPubKey).toBool

def hasScriptSig (scriptSig : CScript) (server : CCoinJoinServer) : Bool :=
  (poolInputs server.vecEntries).any fun txdsin => decide (txdsin.scriptSig = scriptSig)

/-- The script is written into the final transaction, at every input that is named. -/
def writeScriptSig (txinNew : CTxIn) (tx : CMutableTransaction) : CMutableTransaction :=
  { tx with vin := tx.vin.map fun txin =>
    if sameInput txin txinNew then { txin with scriptSig := txinNew.scriptSig } else txin }

/-- The script is given to the first entry that takes it. -/
def signEntries (txinNew : CTxIn) : List CCoinJoinEntry -> List CCoinJoinEntry × Bool
  | [] => ([], false)
  | entry :: rest =>
    match entry.addScriptSig txinNew with
    | (signed, true) => (signed :: rest, true)
    | (kept, false) =>
      let (later, signed) := signEntries txinNew rest
      (kept :: later, signed)

/-- `CCoinJoinServer::AddScriptSig`: the server afterwards and whether the script was
accepted. -/
def addScriptSig (txinNew : CTxIn) (server : CCoinJoinServer) : CCoinJoinServer × Bool :=
  if hasScriptSig txinNew.scriptSig server then (server, false)
  else if !isInputScriptSigValid env txinNew server then (server, false)
  else
    let (vecEntries, signed) := signEntries txinNew server.vecEntries
    ({ server with
      finalMutableTransaction := writeScriptSig txinNew server.finalMutableTransaction
      vecEntries := vecEntries }, signed)

/-- The loop of `ProcessDSSIGNFINALTX`, which ends at the first script that is refused. -/
def addScriptSigs : List CTxIn -> CCoinJoinServer -> CCoinJoinServer × Bool
  | [], server => (server, true)
  | txin :: rest, server =>
    match addScriptSig env txin server with
    | (signed, true) => addScriptSigs rest signed
    | (left, false) => (left, false)

def processDSSIGNFINALTX (vecTxIn : List CTxIn) (server : CCoinJoinServer) : CCoinJoinServer :=
  if pfrom.nVersion < MIN_COINJOIN_PEER_PROTO_VERSION then server
  else
    match addScriptSigs env vecTxIn server with
    | (signed, true) => checkPool env around signed
    | (left, false) => relayStatus around .REJECTED left

end CCoinJoinServer

/-- What can happen: a message of a peer, or one of the tasks of `DoMaintenance`. -/
inductive ServerAction where
  | dsaccept (pfrom : CCoinJoinServer.Peer) (dsa : CCoinJoinAccept)
  | dsvin (pfrom : CCoinJoinServer.Peer) (message : EntryMessage)
  | dssignfinaltx (pfrom : CCoinJoinServer.Peer) (vecTxIn : List CTxIn)
  | checkForCompleteQueue
  | checkPool
  | checkTimeout

/-- An action in its surroundings. -/
structure ServerEvent where
  around : Surroundings
  action : ServerAction

/-- One event.  Nothing is done before the node has caught up with the chain. -/
def serverStep (env : ServerEnv) (server : CCoinJoinServer) (event : ServerEvent) :
    CCoinJoinServer :=
  if !event.around.isBlockchainSynced then server
  else
    match event.action with
    | .dsaccept pfrom dsa => server.processDSACCEPT env event.around pfrom dsa
    | .dsvin pfrom message => server.processDSVIN env event.around pfrom message
    | .dssignfinaltx pfrom vecTxIn => server.processDSSIGNFINALTX env event.around pfrom vecTxIn
    | .checkForCompleteQueue => server.checkForCompleteQueue env event.around
    | .checkPool => server.checkPool env event.around
    | .checkTimeout => server.checkTimeout event.around

end StakeCubeCoin.CoinJoin
