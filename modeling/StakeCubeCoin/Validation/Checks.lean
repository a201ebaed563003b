import StakeCubeCoin.Library.Action
import StakeCubeCoin.Primitives.Block
import StakeCubeCoin.Coins.Cache

namespace StakeCubeCoin.Validation

open Primitives Coins

/-!
# Context-free checks

`CheckTransaction` of `consensus/tx_check.cpp`, and `CheckBlockHeader` and
`CheckBlock` of `validation.cpp`, with the reasons they give.  A check returns the
rejection it ends with, if any.
-/

/-- What `CValidationState` records of a rejected block or transaction.  The text for the debug log
is part of it. -/
structure Rejection where
  nDoS : Nat
  reason : String
  corruptionPossible : Bool := false
  debugMessage : String := ""
  deriving DecidableEq

abbrev Rejection.dos (nDoS : Nat) (reason : String) : Rejection :=
  { nDoS, reason }

/-- How a call ends when it does not return true: with a rejection, by shutting down the node, by a
failed assertion, by an exception, or with `DISCONNECT_FAILED`. -/
inductive Failure where
  | reject (rejection : Rejection)
  | abortNode (message : String)
  | assertion (expression : String)
  | thrown (error : CoinsError)
  | disconnectFailed (message : String)
  deriving DecidableEq

def COIN : CAmount := 100000000
def MAX_MONEY : CAmount := 21000000 * COIN
def COINBASE_MATURITY : Nat := 100
def MAX_LEGACY_BLOCK_SIZE : Nat := 1000000
def MAX_DIP0001_BLOCK_SIZE : Nat := 2000000
def MAX_TX_EXTRA_PAYLOAD : Nat := 10000

def moneyRange (nValue : CAmount) : Bool :=
  decide (0 <= nValue) && decide (nValue <= MAX_MONEY)

def maxBlockSize (fDIP0001Active : Bool := true) : Nat :=
  if fDIP0001Active then MAX_DIP0001_BLOCK_SIZE else MAX_LEGACY_BLOCK_SIZE

def maxBlockSigOps (fDIP0001Active : Bool := true) : Nat :=
  maxBlockSize fDIP0001Active / 50

/-- Sizes, counts and hashes of transactions and blocks which other files compute,
and the consensus parameters the checks look at. -/
structure CheckEnv where
  prim : HashPrimitives
  checkProofOfWork : Uint256 -> BitVec 32 -> Bool
  /-- `GetNHeight`: one more than the height of the previous block, if it is known. -/
  getNHeight : Uint256 -> Int
  hashGenesisBlock : Uint256
  hashDevnetGenesisBlock : Uint256
  /-- `BlockMerkleRoot`: the root, and whether the tree is mutated. -/
  blockMerkleRoot : List CTransaction -> Uint256 × Bool
  vtxSize : List CTransaction -> Nat
  txSize : CTransaction -> Nat
  getLegacySigOpCount : CTransaction -> Nat

variable (env : CheckEnv) (block : CBlock)

def blockSize : Nat :=
  (block.header.serialize env.prim).length + env.vtxSize block.vtx

/-- The loop over the outputs in `CheckTransaction`, with the running total.  Each amount and the
total have to be in the range of money. -/
def checkOutputs : List CTxOut -> CAmount -> Option Rejection
  | [], _ => none
  | txout :: rest, nValueOut =>
    if txout.nValue < 0 then
      some (.dos 100 "bad-txns-vout-negative")
    else if MAX_MONEY < txout.nValue then
      some (.dos 100 "bad-txns-vout-toolarge")
    else if !moneyRange (nValueOut + txout.nValue) then
      some (.dos 100 "bad-txns-txouttotal-toolarge")
    else
      checkOutputs rest (nValueOut + txout.nValue)

def checkTransaction (tx : CTransaction) : Option Rejection :=
  let allowEmptyTxInOut := tx.nType == .quorumCommitment
  if !allowEmptyTxInOut && tx.vin.isEmpty then
    some (.dos 10 "bad-txns-vin-empty")
  else if !allowEmptyTxInOut && tx.vout.isEmpty then
    some (.dos 10 "bad-txns-vout-empty")
  else if MAX_LEGACY_BLOCK_SIZE < env.txSize tx then
    some (.dos 100 "bad-txns-oversize")
  else if MAX_TX_EXTRA_PAYLOAD < tx.vExtraPayload.length then
    some (.dos 100 "bad-txns-payload-oversize")
  else
    match checkOutputs tx.vout 0 with
    | some rejection => some rejection
    | none =>
      if ¬(tx.vin.map CTxIn.prevout).Nodup then
        some (.dos 100 "bad-txns-inputs-duplicate")
      else if tx.isCoinBase then
        let minCbSize := if tx.nType = .coinbase then 1 else 2
        let scriptSize := (tx.vin.head?.map fun input => input.scriptSig.length).getD 0
        if scriptSize < minCbSize || 100 < scriptSize then
          some (.dos 100 "bad-cb-length")
        else
          none
      else if tx.vin.any fun input => input.prevout.isNull then
        some (.dos 10 "bad-txns-prevout-null")
      else
        none

def checkBlockHeader (header : CBlockHeader) (fCheckPOW : Bool) : Option Rejection :=
  let final_hash :=
    if header.isProgPow env.prim then header.getProgPowHashLight env.prim
    else header.getPoWHash env.prim (env.getNHeight header.hashPrevBlock)
  if fCheckPOW && !env.checkProofOfWork final_hash header.nBits then
    some { nDoS := 50, reason := "high-hash", debugMessage := "proof of work failed" }
  else if !env.hashDevnetGenesisBlock.isNull && header.hashPrevBlock == env.hashGenesisBlock &&
      header.getHash env.prim != env.hashDevnetGenesisBlock then
    some (.dos 100 "devnet-genesis")
  else
    none

/-- The merkle part of `CheckBlock`.  A tree with repeated hashes is refused as well, since a block
with other transactions has the same root. -/
def checkMerkleRoot : Option Rejection :=
  let computed := env.blockMerkleRoot block.vtx
  if block.header.hashMerkleRoot ≠ computed.1 then
    some { nDoS := 100, reason := "bad-txnmrklroot", corruptionPossible := true,
           debugMessage := "hashMerkleRoot mismatch" }
  else if computed.2 then
    some { nDoS := 100, reason := "bad-txns-duplicate", corruptionPossible := true,
           debugMessage := "duplicate transaction" }
  else
    none

/-- The check of a transaction within `CheckBlock`, which names it in the debug message. -/
def checkBlockTransaction (tx : CTransaction) : Option Rejection :=
  (checkTransaction env tx).map fun rejection =>
    { rejection with
      debugMessage := "Transaction check failed (tx hash " ++ tx.hash.toHex ++ ") " ++
        rejection.debugMessage }

/-- The checks of `CheckBlock` on the transactions alone: the sizes, the one coinbase at the front,
each transaction by itself, and the signature operations. -/
def checkBlockTransactions : Option Rejection :=
  if block.vtx.isEmpty || maxBlockSize < block.vtx.length || maxBlockSize < blockSize env block then
    some { nDoS := 100, reason := "bad-blk-length", debugMessage := "size limits failed" }
  else if !(block.vtx.head?.map CTransaction.isCoinBase).getD false then
    some { nDoS := 100, reason := "bad-cb-missing", debugMessage := "first tx is not coinbase" }
  else if block.vtx.tail.any CTransaction.isCoinBase then
    some { nDoS := 100, reason := "bad-cb-multiple", debugMessage := "more than one coinbase" }
  else
    match block.vtx.findSome? (checkBlockTransaction env) with
    | some rejection => some rejection
    | none =>
      if maxBlockSigOps < (block.vtx.map env.getLegacySigOpCount).sum then
        some { nDoS := 100, reason := "bad-blk-sigops", debugMessage := "out-of-bounds SigOpCount" }
      else
        none

def checkBlock (fCheckPOW fCheckMerkleRoot : Bool) : Option Rejection :=
  match checkBlockHeader env block.header fCheckPOW with
  | some rejection => some rejection
  | none =>
    match (if fCheckMerkleRoot then checkMerkleRoot env block else none) with
    | some rejection => some rejection
    | none => checkBlockTransactions env block

/-! ## What a checked block satisfies -/

theorem nonneg_of_checkOutputs {outputs : List CTxOut} :
    ∀ {total : CAmount}, checkOutputs outputs total = none -> ∀ out ∈ outputs, 0 <= out.nValue := by
  induction outputs with
  | nil =>
    intro _ _ out member
    cases member
  | cons _ _ ih =>
    intro total checked out member
    rw [checkOutputs] at checked
    split at checked
    · cases checked
    next nonneg =>
    split at checked
    · cases checked
    split at checked
    · cases checked
    rcases List.mem_cons.mp member with now | later
    · rw [now]
      exact Int.not_lt.mp nonneg
    · exact ih checked out later

/-- A checked transaction spends no output twice and makes no negative output. -/
structure TransactionOk (tx : CTransaction) : Prop where
  distinct : (tx.vin.map CTxIn.prevout).Nodup
  nonneg : ∀ out ∈ tx.vout, 0 <= out.nValue

theorem transactionOk_of_checkTransaction {env : CheckEnv} {tx : CTransaction}
    (checked : checkTransaction env tx = none) : TransactionOk tx := by
  simp only [checkTransaction] at checked
  iterate 5
    split at checked
    · cases checked
  next outputsOk =>
  split at checked
  · cases checked
  next distinct =>
  exact ⟨not_not.mp distinct, nonneg_of_checkOutputs outputsOk⟩

/-- A checked block starts with its only coinbase, and its transactions are checked. -/
structure BlockOk (block : CBlock) (coinbase : CTransaction) (others : List CTransaction) :
    Prop where
  shape : block.vtx = coinbase :: others
  first : coinbase.isCoinBase = true
  rest : ∀ tx ∈ others, tx.isCoinBase = false
  transactions : ∀ tx ∈ block.vtx, TransactionOk tx

theorem blockOk_of_checkBlockTransactions {env : CheckEnv} {block : CBlock}
    (checked : checkBlockTransactions env block = none) :
    ∃ coinbase others, BlockOk block coinbase others := by
  unfold checkBlockTransactions at checked
  split at checked
  · cases checked
  next _ =>
  split at checked
  · cases checked
  next first =>
  split at checked
  · cases checked
  next others =>
  split at checked
  · cases checked
  next transactions =>
  cases shape : block.vtx with
  | nil => simp [shape] at first
  | cons coinbase rest =>
    refine ⟨coinbase, rest, shape, ?_, ?_, ?_⟩
    · simpa [shape] using first
    · simpa [shape] using others
    · intro tx member
      rw [List.findSome?_eq_none_iff] at transactions
      exact transactionOk_of_checkTransaction (Option.map_eq_none_iff.mp (transactions tx member))

end StakeCubeCoin.Validation
