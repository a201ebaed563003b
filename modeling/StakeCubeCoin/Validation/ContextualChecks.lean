import StakeCubeCoin.Chain.BlockIndex
import StakeCubeCoin.Validation.Node

namespace StakeCubeCoin.Validation

open Primitives Chain Library

/-!
# Checks that depend on the previous blocks

`ContextualCheckBlockHeader` and `ContextualCheckBlock` of `validation.cpp`, with
`ContextualCheckTransaction`, `IsFinalTx` and `CBlockIndex::GetMedianTimePast`, which
they call.  The retargeting rules are a parameter.
-/

/-- Consensus parameters and options that only the contextual checks look at. -/
structure ContextParams where
  /-- Whether the network is the main network. -/
  fMain : Bool
  getNextWorkRequired : BlockMap -> Uint256 -> CBlockHeader -> BitVec 32
  /-- `abs(n1-n2) > n1*0.5`, for two compact targets converted to `double`. -/
  farApart : BitVec 32 -> BitVec 32 -> Bool
  fCheckpointsEnabled : Bool
  /-- The hashes of `mapCheckpoints`, last one first. -/
  checkpoints : List Uint256
  BIP34Height : Nat
  BIP65Height : Nat
  BIP66Height : Nat
  /-- Whether `DEPLOYMENT_CSV` is active after a block. -/
  csvActive : BlockMap -> Option Uint256 -> Bool

def MAX_FUTURE_BLOCK_TIME : Int := 2 * 60 * 60
def LOCKTIME_THRESHOLD : Int := 500000000
def SEQUENCE_FINAL : Nat := 0xffffffff
def MAX_STANDARD_TX_SIZE : Nat := 100000
def nMedianTimeSpan : Nat := 11

def getBlockTime (header : CBlockHeader) : Int :=
  (header.nTime.toNat : Int)

def lastTimes (map : BlockMap) : Nat -> Option Uint256 -> List Int
  | 0, _ => []
  | _, none => []
  | count + 1, some hash =>
    match map hash with
    | none => []
    | some entry => (entry.nTime.toNat : Int) :: lastTimes map count entry.pprev

def getMedianTimePast (map : BlockMap) (hash : Uint256) : Int :=
  let times := (lastTimes map nMedianTimeSpan (some hash)).insertionSort (fun a b => a <= b)
  times.getD (times.length / 2) 0

variable (params : ContextParams)

def getLastCheckpoint (map : BlockMap) : Option CBlockIndex :=
  params.checkpoints.findSome? map

/-- The proof of work that is asked for.  On the main network an old rule is kept for the
first blocks. -/
def checkBits (map : BlockMap) (pindexPrev : Uint256) (block : CBlockHeader) : Option Rejection :=
  let nHeight := map.height pindexPrev + 1
  let nBitsNext := params.getNextWorkRequired map pindexPrev block
  if params.fMain && decide (nHeight <= 68589) then
    if params.farApart block.nBits nBitsNext then
      some (.dos 100 "bad-diffbits")
    else
      none
  else if block.nBits ≠ nBitsNext then
    some { nDoS := 100, reason := "bad-diffbits",
           debugMessage := "incorrect proof of work at " ++ toString nHeight }
  else
    none

def contextualCheckBlockHeader (map : BlockMap) (pindexPrev : Uint256)
    (block : CBlockHeader) (nAdjustedTime : Int) : Option Rejection :=
  let nHeight := map.height pindexPrev + 1
  match checkBits params map pindexPrev block with
  | some rejection => some rejection
  | none =>
    if params.fCheckpointsEnabled && ((getLastCheckpoint params map).map fun pcheckpoint =>
          decide (nHeight < pcheckpoint.nHeight)).getD false then
      some (.dos 100 "bad-fork-prior-to-checkpoint")
    else if getBlockTime block <= getMedianTimePast map pindexPrev then
      some { nDoS := 0, reason := "time-too-old",
             debugMessage := "block's timestamp is too early " ++ toString (getBlockTime block) ++
               " " ++ toString (getMedianTimePast map pindexPrev) }
    else if nAdjustedTime + MAX_FUTURE_BLOCK_TIME < getBlockTime block then
      some { nDoS := 0, reason := "time-too-new",
             debugMessage := "block timestamp too far in the future " ++
               toString (getBlockTime block) ++ " " ++
               toString (nAdjustedTime + MAX_FUTURE_BLOCK_TIME) }
    else if (decide (block.nVersion.toInt < 2) && decide (params.BIP34Height <= nHeight)) ||
        (decide (block.nVersion.toInt < 3) && decide (params.BIP66Height <= nHeight)) ||
        (decide (block.nVersion.toInt < 4) && decide (params.BIP65Height <= nHeight)) then
      some { nDoS := 0, reason := "bad-version(0x" ++ block.nVersion.toHex ++ ")",
             debugMessage := "rejected nVersion=0x" ++ block.nVersion.toHex ++ " block" }
    else
      none

def isFinalTx (tx : CTransaction) (nBlockHeight : Nat) (nBlockTime : Int) : Bool :=
  decide (tx.nLockTime = 0) || decide ((tx.nLockTime : Int) <
      if (tx.nLockTime : Int) < LOCKTIME_THRESHOLD then (nBlockHeight : Int) else nBlockTime) ||
    tx.vin.all fun txin => decide (txin.nSequence = SEQUENCE_FINAL)

variable (env : NodeEnv) (nHeight : Nat)

/-- `ContextualCheckTransaction`, at the height of the block.  From activation on, only transactions
of version 3 have a type, and it has to be a known one. -/
def contextualCheckTransaction (tx : CTransaction) : Option Rejection :=
  let known := match tx.nType with
    | .other _ => false
    | _ => true
  if env.DIP0003Height <= nHeight /\ 3 <= tx.nVersion /\ known = false then
    some (.dos 100 "bad-txns-type")
  else if env.DIP0003Height <= nHeight /\ 3 <= tx.nVersion /\ tx.isCoinBase = true /\
      tx.nType ≠ .coinbase then
    some (.dos 100 "bad-txns-cb-type")
  else if env.DIP0003Height <= nHeight /\ ¬(3 <= tx.nVersion) /\ tx.nType ≠ .normal then
    some (.dos 100 "bad-txns-type")
  else if env.DIP0001Height <= nHeight /\ MAX_STANDARD_TX_SIZE < env.txSize tx then
    some (.dos 100 "bad-txns-oversize")
  else
    none

/-- The loop over the transactions, but for the count of signature operations. -/
def contextualCheckTransactions (nLockTimeCutoff : Int)
    (vtx : List CTransaction) : Option Rejection :=
  vtx.findSome? fun tx =>
    if !isFinalTx tx nHeight nLockTimeCutoff then
      some { nDoS := 10, reason := "bad-txns-nonfinal", debugMessage := "non-final transaction" }
    else
      contextualCheckTransaction env nHeight tx

def scriptNum (n : Nat) : List UInt8 :=
  let bytes := ((littleEndian 8 n).reverse.dropWhile fun byte => byte == 0).reverse
  if (bytes.getLast?.map fun byte => decide (0x80 <= byte)).getD false then bytes ++ [0] else bytes

/-- `CScript() << nHeight`. -/
def heightScript : CScript :=
  if nHeight = 0 then [0x00]
  else if nHeight <= 16 then [UInt8.ofNat (0x50 + nHeight)]
  else UInt8.ofNat (scriptNum nHeight).length :: scriptNum nHeight

def contextualCheckBlock (params : ContextParams) (map : BlockMap)
    (pindexPrev : Option Uint256) (block : CBlock) : Option Rejection :=
  let nHeight := (pindexPrev.map fun prev => map.height prev + 1).getD 0
  let prevTime := (pindexPrev.bind map).map CBlockIndex.nTime
  let nLockTimeCutoff :=
    if params.csvActive map pindexPrev then
      (pindexPrev.map (getMedianTimePast map)).getD 0
    else
      getBlockTime block.header
  let fDIP0001Active := decide (env.DIP0001Height <= nHeight)
  if (prevTime.map fun nTime => decide (env.prim.nPPSwitchTime <= nTime) &&
      decide (block.header.nTime < env.prim.nPPSwitchTime)).getD false then
    some { nDoS := 0, reason := "bad-blk-progpow-state",
           debugMessage := "Cannot go back from ProgPOW" }
  else if block.header.isProgPow env.prim && decide (block.header.nHeight.toNat ≠ nHeight) then
    -- The text for the log is passed in the place of the flag.
    some { nDoS := 100, reason := "bad-blk-progpow", corruptionPossible := true }
  else if block.vtx.isEmpty || decide (maxBlockSize fDIP0001Active < block.vtx.length) ||
      decide (maxBlockSize fDIP0001Active < blockSize env.toCheckEnv block) then
    some { nDoS := 100, reason := "bad-blk-length", debugMessage := "size limits failed" }
  else
    match contextualCheckTransactions env nHeight nLockTimeCutoff block.vtx with
    | some rejection => some rejection
    | none =>
      if maxBlockSigOps fDIP0001Active < (block.vtx.map env.getLegacySigOpCount).sum then
        some { nDoS := 100, reason := "bad-blk-sigops", debugMessage := "out-of-bounds SigOpCount" }
      else if params.BIP34Height <= nHeight /\ ¬(env.DIP0003Height <= nHeight) /\
          ((block.vtx.head?.bind fun tx => tx.vin.head?).map fun txin =>
            (heightScript nHeight).isPrefixOf txin.scriptSig).getD false = false then
        some { nDoS := 100, reason := "bad-cb-height",
               debugMessage := "block height mismatch in coinbase" }
      else if env.DIP0003Height <= nHeight /\
          (block.vtx.head?.map CTransaction.nType) ≠ some .coinbase then
        some { nDoS := 100, reason := "bad-cb-type", debugMessage := "coinbase is not a CbTx" }
      else
        none

end StakeCubeCoin.Validation
