import StakeCubeCoin.Validation.Node

namespace StakeCubeCoin.Validation

open Primitives Coins Library List Option

/-!
# The set of unspent coins

What connecting a transaction means for the set of unspent coins, without caches and
checks: a batch that erases the outputs it spends and then writes the outputs it
creates.  The coins that were spent are enough to take the batch back.
-/

abbrev UtxoSet := Store COutPoint Coin

/-- What is true of every coin of a chain: it is unspent, created after the genesis block, and can
be spent. -/
structure ChainCoin (coin : Coin) : Prop where
  unspent : coin.isSpent = false
  height_pos : 0 < coin.nHeight
  spendable : coin.out.scriptPubKey.isUnspendable = false

def ChainCoins (coins : UtxoSet) : Prop :=
  ∀ outpoint coin, coins outpoint = some coin -> ChainCoin coin

def coinAt (coins : UtxoSet) (outpoint : COutPoint) : Coin :=
  (coins outpoint).getD Coin.empty

theorem eq_some_coinAt {coins : UtxoSet} {outpoint : COutPoint}
    (held : (coins outpoint).isSome = true) : coins outpoint = some (coinAt coins outpoint) := by
  rcases isSome_iff_exists.mp held with ⟨_, found⟩
  rw [coinAt, found, getD_some]

variable (tx : CTransaction)

def inputs : List COutPoint :=
  if tx.isCoinBase then [] else tx.vin.map CTxIn.prevout

variable (nHeight : Nat)

def outputCoin (out : CTxOut) : Coin :=
  { out, fCoinBase := tx.isCoinBase, nHeight }

def outputOp (item : CTxOut × Nat) : Option (BatchOp COutPoint Coin) :=
  if item.1.scriptPubKey.isUnspendable then none
  else some (.write ⟨tx.hash, item.2⟩ (outputCoin tx nHeight item.1))

def outputOps : List (BatchOp COutPoint Coin) :=
  tx.vout.zipIdx.filterMap (outputOp tx nHeight)

def connectCoins (coins : UtxoSet) : UtxoSet :=
  writeBatch (eraseAll coins (inputs tx)) (outputOps tx nHeight)

theorem mem_outputOps {tx : CTransaction} {nHeight : Nat} {op : BatchOp COutPoint Coin}
    (member : op ∈ outputOps tx nHeight) :
    ∃ out n, (out, n) ∈ tx.vout.zipIdx /\ out.scriptPubKey.isUnspendable = false /\
      op = .write ⟨tx.hash, n⟩ (outputCoin tx nHeight out) := by
  rcases mem_filterMap.mp member with ⟨⟨out, n⟩, listed, made⟩
  unfold outputOp at made
  split at made
  · cases made
  · next spendable =>
    exact ⟨out, n, listed, Bool.not_eq_true _ ▸ spendable, (Option.some.inj made).symm⟩

/-- The transaction takes the coins from one set to another, and these coins were spent.
Nothing is overwritten. -/
structure TxConnected (nHeight : Nat) (tx : CTransaction) (txundo : CTxUndo)
    (before after : UtxoSet) : Prop where
  held : ∀ outpoint ∈ inputs tx, (before outpoint).isSome = true
  spent : txundo = (inputs tx).map (coinAt before)
  distinct : (inputs tx).Nodup
  absent : ∀ op ∈ outputOps tx nHeight, eraseAll before (inputs tx) op.key = none
  after_eq : after = connectCoins tx nHeight before

namespace TxConnected

variable {nHeight : Nat} {tx : CTransaction} {txundo : CTxUndo} {before after : UtxoSet}
  (connected : TxConnected nHeight tx txundo before after)

include connected

/-- A coin after the transaction was there before it, or is one of its outputs. -/
theorem found_cases {outpoint : COutPoint} {coin : Coin} (found : after outpoint = some coin) :
    before outpoint = some coin \/ ∃ out n, (out, n) ∈ tx.vout.zipIdx /\
      out.scriptPubKey.isUnspendable = false /\ outpoint = ⟨tx.hash, n⟩ /\
      coin = outputCoin tx nHeight out := by
  rw [connected.after_eq, connectCoins, writeBatch_eq_lastOp] at found
  cases last : lastOp (outputOps tx nHeight) outpoint with
  | none =>
    rw [last, eraseAll_apply] at found
    split at found
    · cases found
    · exact .inl found
  | some _ =>
    rw [last] at found
    rcases exists_of_lastOp_eq_some last with ⟨_, member, keyed, leaves⟩
    rcases mem_outputOps member with ⟨out, n, listed, spendable, rfl⟩
    rw [<- leaves] at found
    exact .inr ⟨out, n, listed, spendable, keyed.symm, (Option.some.inj found).symm⟩

theorem chainCoins (chain : ChainCoins before) (height_pos : 0 < nHeight)
    (nonneg : ∀ out ∈ tx.vout, 0 <= out.nValue) : ChainCoins after := by
  intro outpoint coin found
  rcases connected.found_cases found with old | ⟨out, n, listed, spendable, _, rfl⟩
  · exact chain outpoint coin old
  · refine ⟨?_, height_pos, spendable⟩
    have amount := nonneg out (fst_mem_of_mem_zipIdx listed)
    have notNull : out.nValue ≠ -1 := by
      intro null
      rw [null] at amount
      cases amount
    simpa [Coin.isSpent, CTxOut.isNull, outputCoin] using notNull

end TxConnected

/-- A list of transactions takes the coins from one set to another; each comes with the
coins it spent. -/
inductive TxsConnected (nHeight : Nat) : List (CTransaction × CTxUndo) -> UtxoSet -> UtxoSet -> Prop
  | nil (coins : UtxoSet) : TxsConnected nHeight [] coins coins
  | cons {tx : CTransaction} {txundo : CTxUndo} {rest : List (CTransaction × CTxUndo)}
    {before middle after : UtxoSet} :
    TxConnected nHeight tx txundo before middle -> TxsConnected nHeight rest middle after ->
    TxsConnected nHeight ((tx, txundo) :: rest) before after

end StakeCubeCoin.Validation
