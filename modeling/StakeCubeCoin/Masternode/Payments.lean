import StakeCubeCoin.Evo.BuildList
import StakeCubeCoin.Governance.Superblock

namespace StakeCubeCoin.Masternode

open Primitives Evo Governance Validation

/-!
# Masternode and superblock payments

`masternode/payments.cpp` and the superblock manager of `governance/classes.cpp`: which
superblock a block pays, what a miner puts into the coinbase, and what a node asks of the
coinbase of a block it is given.

The flag that marks a trigger as funded is a cache.  It is brought up to date each time a
trigger is looked at, but is left as it is while there is no valid masternode.
-/

/-- The signals that are voted on. -/
inductive VoteSignal where
  | funding
  | valid
  | delete
  | endorsed
  deriving DecidableEq

inductive VoteOutcome where
  | yes
  | no
  | abstain
  deriving DecidableEq

/-- `vote_rec_t`: the last vote of a masternode on each signal. -/
abbrev VoteRec := VoteSignal -> Option VoteOutcome

/-- `CGovernanceObject`, as far as triggers are concerned. -/
structure CGovernanceObject where
  mapCurrentMNVotes : List (COutPoint × VoteRec) := []
  fCachedFunding : Bool := false

namespace CGovernanceObject

variable (object : CGovernanceObject) (eVoteSignalIn : VoteSignal)

def countMatchingVotes (eVoteOutcomeIn : VoteOutcome) : Nat :=
  object.mapCurrentMNVotes.countP fun votepair => votepair.2 eVoteSignalIn == some eVoteOutcomeIn

def getAbsoluteYesCount : Int :=
  object.countMatchingVotes eVoteSignalIn .yes - object.countMatchingVotes eVoteSignalIn .no

end CGovernanceObject

/-- What payments depend on.  The share of the operator is bounded when a masternode is
registered. -/
structure PaymentNode (Hash : Type) [DecidableEq Hash] where
  params : ConsensusParams
  traversal : Traversal
  hash160 : List UInt8 -> List UInt8
  /-- The list of the block at a height of the active chain. -/
  getListForBlock : Int -> CDeterministicMNList Hash
  getListAtChainTip : CDeterministicMNList Hash
  mapTrigger : List (Uint256 × CSuperblock)
  findGovernanceObject : Uint256 -> Option CGovernanceObject
  areSuperblocksEnabled : Bool
  fDisableGovernance : Bool
  isSynced : Bool
  nOperatorReward_le : ∀ height payee,
    (getListForBlock height).getMNPayee traversal = some payee -> payee.nOperatorReward <= 10000

namespace PaymentNode

variable {Hash : Type} [DecidableEq Hash] (node : PaymentNode Hash)

/-- `GetValidMNsCount` of the list at the tip. -/
def nMnCount : Int :=
  (node.getListAtChainTip.forEachMN node.traversal true).length

/-- `UpdateSentinelVariables`, as far as the flag for funding is concerned. -/
def updateSentinelVariables (object : CGovernanceObject) : CGovernanceObject :=
  if node.nMnCount = 0 then object
  else
    let nAbsVoteReq := max node.params.nGovernanceMinQuorum (node.nMnCount.tdiv 10)
    { object with fCachedFunding := decide (nAbsVoteReq <= object.getAbsoluteYesCount .funding) }

/-- `GetActiveTriggers`, with the objects of the triggers. -/
def getActiveTriggers : List (CSuperblock × CGovernanceObject) :=
  node.mapTrigger.filterMap fun pair => (node.findGovernanceObject pair.1).map fun object =>
    (pair.2, object)

variable (nBlockHeight : Int)

def isSuperblockTriggered : Bool :=
  node.params.isValidBlockHeight nBlockHeight && node.getActiveTriggers.any fun trigger =>
      decide (nBlockHeight = trigger.1.nBlockHeight) &&
        (node.updateSentinelVariables trigger.2).fCachedFunding

def paysSuperblock : Bool :=
  node.areSuperblocksEnabled && node.isSuperblockTriggered nBlockHeight

/-- The loop of `GetBestSuperblock`: the best superblock so far and its votes. -/
def betterSuperblock (best : Option CSuperblock × Int)
    (trigger : CSuperblock × CGovernanceObject) : Option CSuperblock × Int :=
  let nTempYesCount := trigger.2.getAbsoluteYesCount .funding
  if nBlockHeight = trigger.1.nBlockHeight /\ best.2 < nTempYesCount then
    (some trigger.1, nTempYesCount)
  else best

def getBestSuperblock : Option CSuperblock :=
  if node.params.isValidBlockHeight nBlockHeight then
    (node.getActiveTriggers.foldl (betterSuperblock nBlockHeight) (none, 0)).1
  else none

def getSuperblockPayments : List CTxOut :=
  match node.getBestSuperblock nBlockHeight with
  | none => []
  | some superblock => superblock.outputs

variable (vout : List CTxOut)

def isValidSuperblock (nBlockHeight : Int) (blockReward : CAmount) : Throws Bool :=
  match node.getBestSuperblock nBlockHeight with
  | none => pure false
  | some superblock => superblock.isValid node.params vout nBlockHeight blockReward

def payeeTxOuts (payee : CDeterministicMN) (masternodeReward : CAmount) : List CTxOut :=
  let operatorReward :=
    if payee.nOperatorReward ≠ 0 /\ payee.pdmnState.scriptOperatorPayout ≠ [] then
      (masternodeReward * payee.nOperatorReward).tdiv 10000
    else 0
  let ownerReward := masternodeReward - operatorReward
  (if 0 < ownerReward then [⟨ownerReward, payee.pdmnState.scriptPayout⟩] else []) ++
    if 0 < operatorReward then [⟨operatorReward, payee.pdmnState.scriptOperatorPayout⟩] else []

def getBlockTxOuts (blockReward : CAmount) : Option (List CTxOut) :=
  let masternodeReward := getMasternodePayment nBlockHeight blockReward
  match (node.getListForBlock (nBlockHeight - 1)).getMNPayee node.traversal with
  | none => none
  | some dmnPayee => some (payeeTxOuts dmnPayee masternodeReward)

/-- The search of `IsTransactionValid` for every expected output. -/
def findPayees (vout : List CTxOut) : List CTxOut -> Throws Bool
  | [] => pure true
  | txout :: rest =>
    if vout.any (txout == ·) then findPayees vout rest
    else if (Evo.extractDestination node.hash160 txout.scriptPubKey).isNone then throw "assert(false)"
    else pure false

def isTransactionValid (nBlockHeight : Int) (blockReward : CAmount) : Throws Bool :=
  if nBlockHeight < node.params.dip0003EnforcementHeight then pure true
  else
    match node.getBlockTxOuts nBlockHeight blockReward with
    | none => pure true
    | some voutMasternodePayments => node.findPayees vout voutMasternodePayments

/-! ## The checks of a block -/

/-- The answer of a check, with `strErrorRet`. -/
inductive Verdict where
  | valid
  | invalid (strErrorRet : String)
  deriving DecidableEq

def checkLimit (actual limit : CAmount) (reason : String) : Verdict :=
  if actual <= limit then .valid
  else
    .invalid (s!"coinbase pays too much at height {nBlockHeight} (actual={actual} vs limit={limit}), exceeded " ++
      reason)

def isOldBudgetBlockValueValid (nBlockHeight : Int) (blockReward : CAmount) : Throws Verdict := do
  let actual <- getValueOut vout
  let nOffset := nBlockHeight.tmod node.params.nBudgetPaymentsCycleBlocks
  if nBlockHeight < node.params.nBudgetPaymentsStartBlock then
    pure (.invalid s!"Incorrect block {nBlockHeight}, old budgets are not activated yet")
  else if node.params.nSuperblockStartBlock <= nBlockHeight then
    pure (.invalid s!"Incorrect block {nBlockHeight}, old budgets are no longer active")
  else if nOffset < node.params.nBudgetPaymentsWindowBlocks then
    if node.isSynced then
      pure (checkLimit nBlockHeight actual blockReward "block reward, old budgets are disabled")
    else pure .valid
  else
    pure (checkLimit nBlockHeight actual blockReward
      "block reward, block is not in old budget cycle window")

def isBlockValueValid (nBlockHeight : Int) (blockReward : CAmount) : Throws Verdict := do
  let actual <- getValueOut vout
  let nSuperblockMaxValue := blockReward + node.params.getPaymentsLimit nBlockHeight
  if nBlockHeight < node.params.nBudgetPaymentsStartBlock then
    pure (checkLimit nBlockHeight actual blockReward "block reward, old budgets are not activated yet")
  else if nBlockHeight < node.params.nSuperblockStartBlock then
    node.isOldBudgetBlockValueValid vout nBlockHeight blockReward
  else if !node.params.isValidBlockHeight nBlockHeight then
    pure (checkLimit nBlockHeight actual blockReward
      "block reward, only regular blocks are allowed at this height")
  else if nSuperblockMaxValue < actual then
    pure (checkLimit nBlockHeight actual nSuperblockMaxValue "superblock max value")
  else if !node.isSynced || node.fDisableGovernance then pure .valid
  else if !node.areSuperblocksEnabled then
    pure (checkLimit nBlockHeight actual blockReward "block reward, superblocks are disabled")
  else if !node.isSuperblockTriggered nBlockHeight then
    pure (checkLimit nBlockHeight actual blockReward "block reward, no triggered superblock detected")
  else do
    let valid <- node.isValidSuperblock vout nBlockHeight blockReward
    if valid then pure .valid
    else pure (.invalid s!"invalid superblock detected at height {nBlockHeight}")

def isBlockPayeeValid (nBlockHeight : Int) (blockReward : CAmount) : Throws Bool :=
  if node.fDisableGovernance then pure true
  else if nBlockHeight < node.params.nSuperblockStartBlock then pure true
  else if node.paysSuperblock nBlockHeight then do
    let valid <- node.isValidSuperblock vout nBlockHeight blockReward
    if valid then node.isTransactionValid vout nBlockHeight blockReward else pure false
  else node.isTransactionValid vout nBlockHeight blockReward

/-- `FillBlockPayments`: the outputs of the coinbase, those for the masternode and those of the
superblock. -/
def fillBlockPayments (nBlockHeight : Int) (blockReward : CAmount) :
    List CTxOut × List CTxOut × List CTxOut :=
  let voutSuperblockPayments :=
    if node.paysSuperblock nBlockHeight then
      node.getSuperblockPayments nBlockHeight
    else []
  let voutMasternodePayments := (node.getBlockTxOuts nBlockHeight blockReward).getD []
  let filled := vout ++ voutMasternodePayments ++ voutSuperblockPayments
  let paid := voutMasternodePayments.foldl
    (fun (outputs : List CTxOut) txout =>
      outputs.modifyHead fun miner => { miner with nValue := miner.nValue - txout.nValue })
    filled
  (paid, voutMasternodePayments, voutSuperblockPayments)

/-- Both checks accept the coinbase. -/
def Accepts (nBlockHeight : Int) (blockReward : CAmount) : Prop :=
  node.isBlockValueValid vout nBlockHeight blockReward = .ok .valid /\
    node.isBlockPayeeValid vout nBlockHeight blockReward = .ok true

end PaymentNode
end StakeCubeCoin.Masternode
