import StakeCubeCoin.Validation.UndoCoins

namespace StakeCubeCoin.Validation

open Primitives Coins Evo Library IndexBatch CAddressUnspentValue Option CAddressIndexKey
open CCoinsViewCache
open List hiding after
open Action Nat

/-!
# Taking index entries back

Connecting a block goes through its inputs and outputs in a certain order, and
disconnecting goes through them in exactly the opposite order.  `IndexEvent` is one
step of that walk.  An index is restored if each step is inverted, which is what
`writeBatch_undo` asks for; the inputs that spend a public key output are the steps
that `DisconnectBlock` does not invert.
-/

/-- An input together with the coin it spends, or an output, at its place in a block.  Connecting
walks over them forwards and disconnecting backwards. -/
inductive IndexEvent where
  | input (i : Nat) (txhash : Uint256) (j : Nat) (prevout : COutPoint) (coin : Coin)
  | output (i : Nat) (txhash : Uint256) (k : Nat) (out : CTxOut)
  deriving DecidableEq

namespace IndexEvent

def out : IndexEvent -> CTxOut
  | .input _ _ _ _ coin => coin.out
  | .output _ _ _ out => out

def outpoint : IndexEvent -> COutPoint
  | .input _ _ _ prevout _ => prevout
  | .output _ txhash k _ => ⟨txhash, k⟩

end IndexEvent

def connectEntries (env : NodeEnv) (nHeight : Nat) : IndexEvent -> IndexBatch
  | .input i txhash j prevout coin => connectInputBatch env nHeight i txhash j prevout coin.out
  | .output i txhash k out => connectOutputBatch env nHeight i txhash k out

def disconnectEntries (env : NodeEnv) (nHeight : Nat) : IndexEvent -> IndexBatch
  | .input i txhash j prevout coin =>
    disconnectInputBatch env nHeight i txhash j prevout coin.out coin.nHeight
  | .output i txhash k out => disconnectOutputBatch env nHeight i txhash k out

def inputEvents (i : Nat) (tx : CTransaction) (coins : UtxoSet) : List IndexEvent :=
  if tx.isCoinBase then []
  else tx.vin.zipIdx.map fun item =>
    .input i tx.hash item.2 item.1.prevout (coinAt coins item.1.prevout)

def outputEvents (i : Nat) (tx : CTransaction) : List IndexEvent :=
  tx.vout.zipIdx.map fun item => .output i tx.hash item.2 item.1

theorem mem_inputEvents {i : Nat} {tx : CTransaction} {coins : UtxoSet} {event : IndexEvent} :
    event ∈ inputEvents i tx coins <-> ∃ txin j, tx.isCoinBase = false /\
      tx.vin[j]? = some txin /\ event = .input i tx.hash j txin.prevout (coinAt coins txin.prevout) := by
  cases spends : tx.isCoinBase <;> simp [inputEvents, spends, mem_zipIdx_iff_getElem?, eq_comm]

/-- The steps for a list of transactions, the first of which has index `i`. -/
def blockEvents (nHeight : Nat) : Nat -> List CTransaction -> UtxoSet -> List IndexEvent
  | _, [], _ => []
  | i, tx :: rest, coins =>
    inputEvents i tx coins ++ outputEvents i tx ++
      blockEvents nHeight (i + 1) rest (connectCoins tx nHeight coins)

def spendsPublicKey (nHeight : Nat) : List CTransaction -> UtxoSet -> Bool
  | [], _ => false
  | tx :: rest, coins =>
    ((inputs tx).any fun outpoint => (coinAt coins outpoint).out.scriptPubKey.isPayToPublicKey) ||
      spendsPublicKey nHeight rest (connectCoins tx nHeight coins)

section

variable {env : NodeEnv} {nHeight : Nat}

theorem connectOutputBatches_eq (i : Nat) (tx : CTransaction) (batch : IndexBatch) :
    connectOutputBatches env nHeight i tx batch =
      ((outputEvents i tx).map (connectEntries env nHeight)).foldl append batch := by
  rw [outputEvents, List.map_map, List.foldl_map]
  rfl

theorem disconnectOutputBatches_eq (i : Nat) (tx : CTransaction) (batch : IndexBatch) :
    disconnectOutputBatches env nHeight i tx batch =
      ((outputEvents i tx).reverse.map (disconnectEntries env nHeight)).foldl append batch := by
  rw [outputEvents, <- List.map_reverse, List.map_map, List.foldl_map]
  rfl

theorem connectIndexes_eq (indexed : env.fAddressIndex = true) (vtx : List CTransaction) (i : Nat)
    (coins : UtxoSet) (batch : IndexBatch) :
    connectIndexes env nHeight i vtx coins batch =
        ((blockEvents nHeight i vtx coins).map (connectEntries env nHeight)).foldl append batch := by
  induction vtx generalizing i coins batch with
  | nil =>
    rfl
  | cons _ _ ih =>
    rw [connectIndexes, blockEvents, ih, connectOutputBatches_eq, map_append,
      map_append, foldl_append, foldl_append]
    congr 2
    unfold inputEntries inputEvents
    split
    · rfl
    · rw [if_pos (by rw [indexed]; rfl), List.map_map, List.foldl_map]
      rfl

theorem disconnectIndexes_eq (vtx : List CTransaction)
    (ordinary : ∀ tx ∈ vtx, tx.isCoinBase = false) :
    ∀ (i : Nat) (coins : UtxoSet) (batch : IndexBatch), disconnectIndexes env nHeight i vtx coins batch =
        ((blockEvents nHeight i vtx coins).reverse.map (disconnectEntries env nHeight)).foldl
          append batch := by
  induction vtx with
  | nil =>
    intro i coins batch
    rfl
  | cons tx _ ih =>
    intro i coins batch
    rw [disconnectIndexes, blockEvents, ih (forall_mem_cons.mp ordinary).2, disconnectOutputBatches_eq,
      reverse_append, reverse_append, map_append, map_append, foldl_append, foldl_append, inputEvents,
      if_neg (by rw [ordinary tx (.head _)]; decide), <- List.map_reverse, List.map_map]
    exact foldl_map.symm

theorem disconnectBlockIndexes_eq {block : CBlock} {coinbase : CTransaction}
    {others : List CTransaction} (ok : BlockOk block coinbase others) (coins : UtxoSet) :
    disconnectBlockIndexes env nHeight block.vtx coins =
      ((blockEvents nHeight 0 block.vtx coins).reverse.map (disconnectEntries env nHeight)).foldl
        append {} := by
  rw [ok.shape, disconnectBlockIndexes, blockEvents, disconnectIndexes_eq others ok.rest,
    disconnectOutputBatches_eq, inputEvents, if_pos ok.first, nil_append,
    reverse_append, map_append, foldl_append]

theorem foldl_append {β : Type} (part : IndexBatch -> List β)
    (joins : ∀ first second, part (first.append second) = part first ++ part second)
    (batches : List IndexBatch) (batch : IndexBatch) :
    part (batches.foldl append batch) = part batch ++ batches.flatMap part := by
  induction batches generalizing batch with
  | nil => simp
  | cons _ _ ih => rw [foldl_cons, ih, joins, flatMap_cons, append_assoc]

end

/-! ## The entries of one step -/

def unspentKeyAt (outpoint : COutPoint) (address : Nat × Uint160) : CAddressUnspentKey :=
  { type := address.1, hashBytes := address.2, txhash := outpoint.hash, index := outpoint.n }

def unspentValueOf (coin : Coin) : CAddressUnspentValue :=
  { satoshis := coin.out.nValue, script := coin.out.scriptPubKey, blockHeight := coin.nHeight }

def spentKeyAt (outpoint : COutPoint) : CSpentIndexKey :=
  { txid := outpoint.hash, outputIndex := outpoint.n }

namespace IndexEvent

def isInput : IndexEvent -> Bool
  | .input _ _ _ _ _ => true
  | .output _ _ _ _ => false

def spendsKey : IndexEvent -> Bool
  | .input _ _ _ _ coin => coin.out.scriptPubKey.isPayToPublicKey
  | .output _ _ _ _ => false

def activityKey (nHeight : Nat) : IndexEvent -> Nat × Uint160 -> CAddressIndexKey
  | .input i txhash j _ _, address =>
    { type := address.1, hashBytes := address.2, blockHeight := nHeight, txindex := i,
      txhash, index := j, spending := true }
  | .output i txhash k _, address =>
    { type := address.1, hashBytes := address.2, blockHeight := nHeight, txindex := i,
      txhash, index := k, spending := false }

def activity : IndexEvent -> CAmount
  | .input _ _ _ _ coin => -coin.out.nValue
  | .output _ _ _ out => out.nValue

def unspentKey (event : IndexEvent) (address : Nat × Uint160) : CAddressUnspentKey :=
  unspentKeyAt event.outpoint address

/-- The value written there when connecting. -/
def unspentAfter (nHeight : Nat) : IndexEvent -> CAddressUnspentValue
  | .input _ _ _ _ _ => {}
  | .output _ _ _ out =>
    { satoshis := out.nValue, script := out.scriptPubKey, blockHeight := nHeight }

/-- The value written there when disconnecting. -/
def unspentBefore : IndexEvent -> CAddressUnspentValue
  | .input _ _ _ _ coin => unspentValueOf coin
  | .output _ _ _ _ => {}

def spentKey (event : IndexEvent) : CSpentIndexKey :=
  spentKeyAt event.outpoint

end IndexEvent

def addressed (env : NodeEnv) (events : List IndexEvent) : List (IndexEvent × (Nat × Uint160)) :=
  events.flatMap fun event =>
    (indexedAddress env.hash160 event.out.scriptPubKey).toList.map fun address => (event, address)

theorem addressed_eq (env : NodeEnv) (events : List IndexEvent) : addressed env events =
    events.filterMap fun event =>
      (indexedAddress env.hash160 event.out.scriptPubKey).map fun address => (event, address) := by
  rw [filterMap_eq_flatMap_toList]
  simp only [addressed, toList_map]

theorem mem_addressed {env : NodeEnv} {events : List IndexEvent}
    {item : IndexEvent × (Nat × Uint160)} :
    item ∈ addressed env events <->
      item.1 ∈ events /\ indexedAddress env.hash160 item.1.out.scriptPubKey = some item.2 := by
  rw [addressed_eq, mem_filterMap]
  constructor
  · rintro ⟨_, member, listed⟩
    rcases map_eq_some_iff.mp listed with ⟨_, known, rfl⟩
    exact ⟨member, known⟩
  · rintro ⟨member, known⟩
    exact ⟨item.1, member, by rw [known]; rfl⟩

theorem addressed_reverse (env : NodeEnv) (events : List IndexEvent) :
    addressed env events.reverse = (addressed env events).reverse := by
  rw [addressed_eq, addressed_eq, filterMap_reverse]

section

variable {env : NodeEnv} {nHeight : Nat}

theorem flatMap_addressed (env : NodeEnv) {β : Type} (events : List IndexEvent)
    (part : IndexEvent -> List β) (entry : IndexEvent × (Nat × Uint160) -> β)
    (parts : ∀ event ∈ events, part event =
      (indexedAddress env.hash160 event.out.scriptPubKey).toList.map
        fun address => entry (event, address)) :
    events.flatMap part = (addressed env events).map entry := by
  unfold addressed
  rw [map_flatMap]
  apply flatMap_congr
  intro event member
  rw [parts event member, List.map_map]
  rfl

theorem connect_indexed (indexed : env.fAddressIndex = true) (event : IndexEvent) :
    (connectEntries env nHeight event).addressIndex =
        (indexedAddress env.hash160 event.out.scriptPubKey).toList.map
          (fun address => (event.activityKey nHeight address, event.activity)) /\
      (connectEntries env nHeight event).addressUnspentIndex =
        (indexedAddress env.hash160 event.out.scriptPubKey).toList.map
          fun address => (event.unspentKey address, event.unspentAfter nHeight) := by
  cases event with
  | input i txhash _ _ coin =>
    simp only [connectEntries, connectInputBatch, indexed, IndexEvent.out]
    cases indexedAddress env.hash160 coin.out.scriptPubKey <;> exact ⟨rfl, rfl⟩
  | output i txhash _ out =>
    simp only [connectEntries, connectOutputBatch, outputBatch, indexed, IndexEvent.out]
    cases indexedAddress env.hash160 out.scriptPubKey <;> exact ⟨rfl, rfl⟩

theorem disconnect_indexed (indexed : env.fAddressIndex = true) {event : IndexEvent}
    (noKey : event.spendsKey = false) : (disconnectEntries env nHeight event).addressIndex =
        (indexedAddress env.hash160 event.out.scriptPubKey).toList.map
          (fun address => (event.activityKey nHeight address, event.activity)) /\
      (disconnectEntries env nHeight event).addressUnspentIndex =
        (indexedAddress env.hash160 event.out.scriptPubKey).toList.map
          fun address => (event.unspentKey address, event.unspentBefore) := by
  cases event with
  | input i txhash _ _ coin =>
    change coin.out.scriptPubKey.isPayToPublicKey = false at noKey
    simp only [disconnectEntries, disconnectInputBatch, indexed, noKey, IndexEvent.out]
    cases indexedAddress env.hash160 coin.out.scriptPubKey <;> exact ⟨rfl, rfl⟩
  | output i txhash _ out =>
    simp only [disconnectEntries, disconnectOutputBatch, outputBatch, indexed, IndexEvent.out]
    cases indexedAddress env.hash160 out.scriptPubKey <;> exact ⟨rfl, rfl⟩

theorem disconnect_spent (spentIndexed : env.fSpentIndex = true) (event : IndexEvent) :
    (disconnectEntries env nHeight event).spentIndex =
      if event.isInput then [(event.spentKey, {})] else [] := by
  cases event with
  | input => simp only [disconnectEntries, disconnectInputBatch, spentIndexed]; rfl
  | output => simp only [disconnectEntries, disconnectOutputBatch, outputBatch]; split <;> rfl

def spentValue (env : NodeEnv) (nHeight : Nat) : IndexEvent -> CSpentIndexValue
  | .input _ txhash j _ coin =>
    { txid := txhash, inputIndex := j, blockHeight := nHeight, satoshis := coin.out.nValue,
      addressType :=
        ((indexedAddress env.hash160 coin.out.scriptPubKey).map Prod.fst).getD 0
      addressHash :=
        ((indexedAddress env.hash160 coin.out.scriptPubKey).map Prod.snd).getD (replicate 20 0) }
  | .output _ _ _ _ => {}

theorem flatMap_spentIndex {entries : IndexEvent -> IndexBatch}
    {value : IndexEvent -> CSpentIndexValue} (each : ∀ event, (entries event).spentIndex =
      if event.isInput then [(event.spentKey, value event)] else []) (events : List IndexEvent) :
    (events.flatMap fun event => (entries event).spentIndex) =
      (events.filter IndexEvent.isInput).map fun event => (event.spentKey, value event) := by
  induction events with
  | nil => rfl
  | cons event _ ih =>
    rw [flatMap_cons, ih, each, filter_cons]
    split <;> rfl

end

/-! ## Where the coins of a walk come from -/

/-- Where the output of a step comes from: a spent coin was there before the block or was made by an
earlier step; an output is made by a transaction of the block. -/
def Traced (start : UtxoSet) (txids : List Uint256) (done : List IndexEvent) : IndexEvent -> Prop
  | .input _ _ _ prevout coin =>
    ChainCoin coin /\ (start prevout = some coin \/
      ∃ earlier ∈ done, earlier.outpoint = prevout /\
        earlier.out = coin.out /\ prevout.hash ∈ txids)
  | .output _ txhash _ out => txhash ∈ txids /\ 0 <= out.nValue

theorem Traced.append {start : UtxoSet} {txids : List Uint256} {done more : List IndexEvent}
    {event : IndexEvent} (traced : Traced start txids done event) :
    Traced start txids (done ++ more) event := by
  cases event with
  | input i txhash _ _ _ =>
    refine ⟨traced.1, ?_⟩
    rcases traced.2 with old | ⟨earlier, member, made⟩
    · exact .inl old
    · exact .inr ⟨earlier, mem_append_left more member, made⟩
  | output i txhash _ _ => exact traced

/-- All coins come from before the block or from steps already made. -/
def Origin (start : UtxoSet) (txids : List Uint256) (done : List IndexEvent) (coins : UtxoSet) :
    Prop :=
  ∀ outpoint coin, coins outpoint = some coin -> start outpoint = some coin \/
    ∃ earlier ∈ done, earlier.outpoint = outpoint /\
      earlier.out = coin.out /\ outpoint.hash ∈ txids

section

variable {nHeight : Nat} {start : UtxoSet} {txids : List Uint256} {after before : UtxoSet}

theorem origin_connectCoins {i : Nat} {tx : CTransaction} {txundo : CTxUndo}
    (connected : TxConnected nHeight tx txundo before after) {done : List IndexEvent}
    (origin : Origin start txids done before) (known : tx.hash ∈ txids) :
    Origin start txids (done ++ (inputEvents i tx before ++ outputEvents i tx)) after := by
  intro outpoint coin found
  rcases connected.found_cases found with held | ⟨out, n, listed, _, rfl, rfl⟩
  · rcases origin outpoint coin held with old | ⟨earlier, member, made⟩
    · exact .inl old
    · exact .inr ⟨earlier, mem_append_left _ member, made⟩
  · refine .inr ⟨.output i tx.hash n out, ?_, rfl, rfl, known⟩
    exact mem_append_right _ (mem_append_right _ (mem_map.mpr ⟨(out, n), listed, rfl⟩))

theorem traced_blockEvents {txs : List (CTransaction × CTxUndo)}
    (connected : TxsConnected nHeight txs before after) (height_pos : 0 < nHeight) {i : Nat}
    (done : List IndexEvent) :
    ChainCoins before -> Origin start txids done before ->
      (∀ item ∈ txs, item.1.hash ∈ txids /\ TransactionOk item.1) ->
      ∀ past event future, blockEvents nHeight i (txs.map Prod.fst) before = past ++
        event :: future -> Traced start txids (done ++ past) event := by
  induction connected generalizing i done with
  | nil _ =>
    intro _ _ _ past event future split
    exact absurd split (by simp [blockEvents])
  | @cons tx txundo rest before middle after first restConnected ih =>
    intro chain origin ok past event future split
    have firstOk := ok (tx, txundo) (.head _)
    have nextOrigin := origin_connectCoins (i := i) first origin firstOk.1
    -- A step of a later transaction is covered by the induction hypothesis.
    have later : ∀ past',
        blockEvents nHeight (i + 1) (rest.map Prod.fst) (connectCoins tx nHeight before) =
          past' ++ event :: future ->
        past = inputEvents i tx before ++ outputEvents i tx ++ past' ->
        Traced start txids (done ++ past) event := by
      intro past' restSplit past_eq
      rw [<- first.after_eq] at restSplit
      have traced := ih _ (first.chainCoins chain height_pos firstOk.2.nonneg) nextOrigin
        (forall_mem_cons.mp ok).2 past' event future restSplit
      rw [past_eq]
      rw [append_assoc] at traced
      exact traced
    rcases append_eq_append_iff.mp split with ⟨past', past_eq, rest_eq⟩ | ⟨now, here, split'⟩
    · exact later past' rest_eq past_eq
    cases now with
    | nil =>
      rw [append_nil] at here
      exact later [] split'.symm (by rw [append_nil]; exact here.symm)
    | cons head _ =>
      injection split' with same _
      have member : event ∈ inputEvents i tx before ++ outputEvents i tx := by
        rw [here, same]
        simp
      apply Traced.append
      rcases mem_append.mp member with spending | making
      · rcases mem_inputEvents.mp spending with ⟨txin, _, ordinary, place, rfl⟩
        have spends : txin.prevout ∈ inputs tx := by
          rw [inputs, ordinary]
          exact mem_map_of_mem (mem_of_getElem? place)
        have held := eq_some_coinAt (first.held _ spends)
        exact ⟨chain _ _ held, origin _ _ held⟩
      · rcases mem_map.mp making with ⟨item, listed, rfl⟩
        exact ⟨firstOk.1, firstOk.2.nonneg _ (fst_mem_of_mem_zipIdx listed)⟩

end

/-- The indexes fit the coins of a chain below a height.  `old` holds of the ids of the
transactions of that chain. -/
structure IndexesConsistent (env : NodeEnv) (nHeight : Nat) (old : Uint256 -> Prop)
    (coins : UtxoSet) (db : CBlockTreeDB) : Prop where
  address_height : ∀ key value, db.addressIndex key = some value -> key.blockHeight < nHeight
  unspent_held : ∀ outpoint coin address, coins outpoint = some coin ->
    indexedAddress env.hash160 coin.out.scriptPubKey = some address ->
    db.addressUnspentIndex (unspentKeyAt outpoint address) = some (unspentValueOf coin)
  unspent_old : ∀ key value, db.addressUnspentIndex key = some value -> old key.txhash
  spent_absent : ∀ outpoint coin, coins outpoint = some coin ->
    db.spentIndex (spentKeyAt outpoint) = none
  spent_old : ∀ key value, db.spentIndex key = some value -> old key.txid

section

variable {env : NodeEnv} {nHeight : Nat} {old : Uint256 -> Prop} {start : UtxoSet}
variable {db : CBlockTreeDB} {events : List IndexEvent} {txids : List Uint256}

/-- Everything in the address index is from below, and the entries of a walk are not. -/
theorem IndexesConsistent.activity_absent (consistent : IndexesConsistent env nHeight old start db)
    (event : IndexEvent) (address : Nat × Uint160) :
    db.addressIndex (event.activityKey nHeight address) = none := by
  cases found : db.addressIndex (event.activityKey nHeight address) with
  | none => rfl
  | some value =>
    have below := consistent.address_height _ value found
    have here : (event.activityKey nHeight address).blockHeight = nHeight := by
      cases event <;> rfl
    rw [here] at below
    exact absurd below (lt_irrefl nHeight)

theorem key_updateOp {Key Value : Type} {key : Key} {value : Value} (isNull : Bool) :
    (if isNull then BatchOp.erase key else .write key value).key = key := by
  cases isNull <;> rfl

def unspentOp (key : CAddressUnspentKey) (value : CAddressUnspentValue) :
    BatchOp CAddressUnspentKey CAddressUnspentValue :=
  if value.isNull then .erase key else .write key value

theorem unspentOp_key (key : CAddressUnspentKey) (value : CAddressUnspentValue) :
    (unspentOp key value).key = key :=
  key_updateOp value.isNull

theorem addressUnspentIndex_restored (consistent : IndexesConsistent env nHeight old start db)
    (fresh : ∀ txid ∈ txids, ¬old txid)
    (traced : ∀ past event future, events = past ++ event :: future -> Traced start txids past event) :
    writeBatch (writeBatch db.addressUnspentIndex ((addressed env events).map fun item =>
        unspentOp (item.1.unspentKey item.2) (item.1.unspentAfter nHeight)))
      ((addressed env events).reverse.map fun item =>
        unspentOp (item.1.unspentKey item.2) item.1.unspentBefore) = db.addressUnspentIndex := by
  refine writeBatch_undo
    (fun item : IndexEvent × (Nat × Uint160) =>
      unspentOp (item.1.unspentKey item.2) (item.1.unspentAfter nHeight))
    (fun item => unspentOp (item.1.unspentKey item.2) item.1.unspentBefore)
    (fun _ _ => by rw [unspentOp_key, unspentOp_key]) db.addressUnspentIndex ?_
  intro past item future split
  rcases item with ⟨event, address⟩
  have listed : (event, address) ∈ addressed env events := by
    rw [split]
    simp
  have known := (mem_addressed.mp listed).2
  rw [addressed_eq, filterMap_eq_append_iff] at split
  rcases split with ⟨first, _, rfl, past_eq, next⟩
  rcases filterMap_eq_cons_iff.mp next with ⟨skipped, _, after, rfl, unlisted, found, _⟩
  rcases map_eq_some_iff.mp found with ⟨_, _, same⟩
  cases same
  have step := traced (first ++ skipped) event after (append_assoc ..).symm
  rw [unspentOp_key]
  cases event with
  | input i txhash _ prevout coin =>
    have written : unspentOp (unspentKeyAt prevout address) (unspentValueOf coin) =
        .write (unspentKeyAt prevout address) (unspentValueOf coin) := by
      rw [unspentOp]
      have unspent := step.1.unspent
      simpa [isNull, unspentValueOf, Coin.isSpent, CTxOut.isNull] using unspent
    rcases step.2 with held | ⟨earlier, member, outpoint_eq, out_eq, _⟩
    · -- The coin was there before the block, and so was its entry.
      right
      change (unspentOp (unspentKeyAt prevout address) (unspentValueOf coin)).value =
        db.addressUnspentIndex (unspentKeyAt prevout address)
      rw [written, consistent.unspent_held prevout coin address held known]
      rfl
    · -- A step before this one has written the same key.
      left
      refine ⟨(earlier, address), ?_, ?_⟩
      · rw [<- past_eq, <- append_nil (filterMap _ first), <- filterMap_eq_nil_iff.mpr unlisted,
          <- filterMap_append, <- addressed_eq]
        refine mem_addressed.mpr ⟨member, ?_⟩
        rw [out_eq]
        exact known
      · rw [unspentOp_key]
        change unspentKeyAt earlier.outpoint address = unspentKeyAt prevout address
        rw [outpoint_eq]
  | output i txhash k _ =>
    right
    change none = db.addressUnspentIndex (unspentKeyAt ⟨txhash, k⟩ address)
    cases found : db.addressUnspentIndex (unspentKeyAt ⟨txhash, k⟩ address) with
    | none => rfl
    | some value => exact absurd (consistent.unspent_old _ value found) (fresh txhash step.1)

def spentOp (key : CSpentIndexKey) (value : CSpentIndexValue) :
    BatchOp CSpentIndexKey CSpentIndexValue :=
  if value.isNull then .erase key else .write key value

theorem spentIndex_restored (consistent : IndexesConsistent env nHeight old start db)
    (fresh : ∀ txid ∈ txids, ¬old txid)
    (traced : ∀ event ∈ events, ∃ past, Traced start txids past event) :
    writeBatch (writeBatch db.spentIndex ((events.filter IndexEvent.isInput).map fun event =>
        spentOp event.spentKey (spentValue env nHeight event)))
      ((events.filter IndexEvent.isInput).reverse.map fun event =>
        spentOp event.spentKey {}) = db.spentIndex := by
  have keyed : ∀ key value, (spentOp key value).key = key := fun _ value =>
    key_updateOp value.isNull
  refine writeBatch_undo (fun event => spentOp event.spentKey (spentValue env nHeight event))
    (fun event => spentOp event.spentKey {}) (fun _ _ => by rw [keyed, keyed]) db.spentIndex ?_
  intro past event future split
  have member : event ∈ events.filter IndexEvent.isInput := by
    rw [split]
    simp
  rcases mem_filter.mp member with ⟨listed, spending⟩
  rcases traced event listed with ⟨_, step⟩
  right
  rw [keyed]
  cases event with
  | output i txhash _ _ => cases spending
  | input i txhash _ prevout coin =>
    change none = db.spentIndex (spentKeyAt prevout)
    rcases step.2 with held | ⟨_, _, _, _, inBlock⟩
    · rw [consistent.spent_absent prevout coin held]
    · cases found : db.spentIndex (spentKeyAt prevout) with
      | none => rfl
      | some value => exact absurd (consistent.spent_old _ value found) (fresh _ inBlock)

end

/-! ## Steps that spend a public key output -/

section

variable {env : NodeEnv} {nHeight : Nat} (vtx : List CTransaction)

theorem spendsPublicKey_iff (i : Nat) (coins : UtxoSet) :
    spendsPublicKey nHeight vtx coins = true <->
      ∃ event ∈ blockEvents nHeight i vtx coins, event.spendsKey = true := by
  rw [<- List.any_eq_true, Bool.coe_iff_coe]
  induction vtx generalizing i coins with
  | nil => rfl
  | cons tx _ ih =>
    have made : (outputEvents i tx).any IndexEvent.spendsKey = false := by
      simp [outputEvents, IndexEvent.spendsKey]
    have spent : (inputEvents i tx coins).any IndexEvent.spendsKey =
        (inputs tx).any fun outpoint => (coinAt coins outpoint).out.scriptPubKey.isPayToPublicKey := by
      unfold inputEvents inputs
      split
      · rfl
      · rw [List.any_map, List.any_map]
        conv_rhs => rw [<- zipIdx_map_fst 0 tx.vin, List.any_map]
        rfl
    rw [spendsPublicKey, blockEvents, any_append, any_append, made, spent, Bool.or_false, ih (i + 1)]

def IndexEvent.txindex : IndexEvent -> Nat
  | .input i _ _ _ _ => i
  | .output i _ _ _ => i

variable {event : IndexEvent} {coins : UtxoSet}

theorem txindex_of_mem_txEvents {i : Nat} {tx : CTransaction}
    (member : event ∈ inputEvents i tx coins ++ outputEvents i tx) : event.txindex = i := by
  rcases mem_append.mp member with spending | making
  · rcases mem_inputEvents.mp spending with ⟨_, _, _, _, rfl⟩
    rfl
  · rcases mem_map.mp making with ⟨_, _, rfl⟩
    rfl

theorem le_txindex_of_mem_blockEvents {i : Nat} {event : IndexEvent} :
    event ∈ blockEvents nHeight i vtx coins -> i <= event.txindex := by
  induction vtx generalizing i coins event with
  | nil =>
    intro member
    cases member
  | cons _ _ ih =>
    intro member
    rcases mem_append.mp member with now | later
    · exact le_of_eq (txindex_of_mem_txEvents now).symm
    · exact le_of_succ_le (ih later)

theorem input_unique {i : Nat} {n : Nat} {txhash txhash' : Uint256} {j : Nat}
    {prevout prevout' : COutPoint} {coin coin' : Coin} :
    .input n txhash j prevout coin ∈ blockEvents nHeight i vtx coins ->
      .input n txhash' j prevout' coin' ∈ blockEvents nHeight i vtx coins -> coin = coin' := by
  induction vtx generalizing i coins n txhash txhash' j prevout prevout' coin coin' with
  | nil =>
    intro member _
    cases member
  | cons tx rest ih =>
    intro first second
    rcases mem_append.mp first with now | later
    · have here : n = i := txindex_of_mem_txEvents now
      rcases mem_append.mp second with now' | later'
      · -- Both are inputs of the same transaction.
        have spends : ∀ {txhash prevout coin},
            IndexEvent.input n txhash j prevout coin ∈ inputEvents i tx coins ++ outputEvents i tx ->
            ∃ txin, tx.vin[j]? = some txin /\ coin = coinAt coins txin.prevout := by
          intro txhash prevout coin member
          rcases mem_append.mp member with spending | making
          · rcases mem_inputEvents.mp spending with ⟨txin, j, _, place, same⟩
            cases same
            exact ⟨txin, place, rfl⟩
          · rcases mem_map.mp making with ⟨_, _, same⟩
            cases same
        rcases spends now with ⟨txin, place, rfl⟩
        rcases spends now' with ⟨_, place', rfl⟩
        rw [place] at place'
        rw [Option.some.inj place']
      · have above : i + 1 <= n := le_txindex_of_mem_blockEvents rest later'
        omega
    · have above : i + 1 <= n := le_txindex_of_mem_blockEvents rest later
      rcases mem_append.mp second with now' | later'
      · have here : n = i := txindex_of_mem_txEvents now'
        omega
      · exact ih later later'

theorem address_of_spendsKey (env : NodeEnv) (spends : event.spendsKey = true) : ∃ address,
      indexedAddress env.hash160 event.out.scriptPubKey = some address := by
  cases event with
  | output i txhash _ out => cases spends
  | input i txhash _ _ coin =>
    change coin.out.scriptPubKey.isPayToPublicKey = true at spends
    change ∃ address, indexedAddress env.hash160 coin.out.scriptPubKey = some address
    unfold indexedAddress
    split
    · exact ⟨_, rfl⟩
    split <;> exact ⟨_, rfl⟩

end

section

variable {env : NodeEnv} {base : CCoinsView}

theorem undoIndexes_writeIndexes (addressIndexed : env.fAddressIndex = true)
    (spentIndexed : env.fSpentIndex = true) (pindex : BlockPosition) (done undone : IndexBatch)
    (db : CBlockTreeDB) : (undoIndexes env undone (writeIndexes env pindex done db)).addressIndex =
        writeBatch (writeBatch db.addressIndex (done.addressIndex.map fun item => .write item.1 item.2))
          (undone.addressIndex.map fun item => .erase item.1) /\
      (undoIndexes env undone (writeIndexes env pindex done db)).addressUnspentIndex =
        writeBatch (writeBatch db.addressUnspentIndex (updateOps isNull done.addressUnspentIndex))
          (updateOps isNull undone.addressUnspentIndex) /\
      (undoIndexes env undone (writeIndexes env pindex done db)).spentIndex =
        writeBatch (writeBatch db.spentIndex (updateOps CSpentIndexValue.isNull done.spentIndex))
          (updateOps CSpentIndexValue.isNull undone.spentIndex) := by
  unfold undoIndexes writeIndexes
  simp only [addressIndexed, spentIndexed, if_true]
  split <;> exact ⟨rfl, rfl, rfl⟩

/-- The three indexes are as they were. -/
def SameIndexes (first second : CBlockTreeDB) : Prop :=
  first.addressIndex = second.addressIndex /\
    first.addressUnspentIndex = second.addressUnspentIndex /\ first.spentIndex = second.spentIndex

section

variable {nHeight : Nat} {old : Uint256 -> Prop} {start : UtxoSet} {db : CBlockTreeDB}
  {block : CBlock} {pindex : BlockPosition} {coinbase : CTransaction} {others : List CTransaction}
  (ok : BlockOk block coinbase others) (addressIndexed : env.fAddressIndex = true)
  (spentIndexed : env.fSpentIndex = true) (consistent : IndexesConsistent env nHeight old start db)

include ok addressIndexed spentIndexed consistent

/-- The indexes after a block has been connected and disconnected, when no input spends a
public key output. -/
theorem sameIndexes_of_walk {txids : List Uint256} (fresh : ∀ txid ∈ txids, ¬old txid)
    (traced : ∀ past event future, blockEvents nHeight 0 block.vtx start = past ++
      event :: future -> Traced start txids past event)
    (noKeys : ∀ event ∈ blockEvents nHeight 0 block.vtx start, event.spendsKey = false) :
    SameIndexes (undoIndexes env (disconnectBlockIndexes env nHeight block.vtx start)
      (writeIndexes env pindex (connectIndexes env nHeight 0 block.vtx start {}) db)) db := by
  have noKeysBack : ∀ event ∈ (blockEvents nHeight 0 block.vtx start).reverse,
      event.spendsKey = false := fun event member => noKeys event (mem_reverse.mp member)
  rcases undoIndexes_writeIndexes addressIndexed spentIndexed pindex
      (connectIndexes env nHeight 0 block.vtx start {})
      (disconnectBlockIndexes env nHeight block.vtx start) db with ⟨address, unspent, spent⟩
  rw [connectIndexes_eq addressIndexed, disconnectBlockIndexes_eq ok] at address unspent spent ⊢
  refine ⟨address.trans ?_, unspent.trans ?_, spent.trans ?_⟩
  · simp only [foldl_append addressIndex fun _ _ => rfl, flatMap_map]
    change writeBatch (writeBatch _ (map _ (flatMap _ _))) (map _ (flatMap _ _)) = _
    rw [flatMap_addressed env _ _ (fun item => (item.1.activityKey nHeight item.2, item.1.activity))
        fun event _ => (connect_indexed addressIndexed event).1,
      flatMap_addressed env _ _ (fun item => (item.1.activityKey nHeight item.2, item.1.activity))
        fun event member => (disconnect_indexed addressIndexed (noKeysBack event member)).1,
      addressed_reverse, List.map_map, List.map_map]
    refine writeBatch_undo
      (fun item : IndexEvent × (Nat × Uint160) =>
        .write (item.1.activityKey nHeight item.2) item.1.activity)
      (fun item => .erase (item.1.activityKey nHeight item.2)) (fun _ _ => rfl) db.addressIndex ?_
    intro past item future _
    exact .inr (consistent.activity_absent item.1 item.2).symm
  · simp only [foldl_append addressUnspentIndex fun _ _ => rfl, flatMap_map]
    change writeBatch (writeBatch _ (updateOps _ (flatMap _ _))) (updateOps _ (flatMap _ _)) = _
    rw [flatMap_addressed env _ _ (fun item => (item.1.unspentKey item.2, item.1.unspentAfter nHeight))
        fun event _ => (connect_indexed addressIndexed event).2,
      flatMap_addressed env _ _ (fun item => (item.1.unspentKey item.2, item.1.unspentBefore))
        fun event member => (disconnect_indexed addressIndexed (noKeysBack event member)).2,
      addressed_reverse, updateOps, updateOps, List.map_map, List.map_map]
    exact addressUnspentIndex_restored consistent fresh traced
  · simp only [foldl_append spentIndex fun _ _ => rfl, flatMap_map]
    change writeBatch (writeBatch _ (updateOps _ (flatMap _ _))) (updateOps _ (flatMap _ _)) = _
    have connects : ∀ event, (connectEntries env nHeight event).spentIndex =
        if event.isInput then [(event.spentKey, spentValue env nHeight event)] else [] := by
      intro event
      cases event with
      | input => simp only [connectEntries, connectInputBatch, spentIndexed]; rfl
      | output => simp only [connectEntries, connectOutputBatch, outputBatch]; split <;> rfl
    rw [flatMap_spentIndex connects, flatMap_spentIndex (disconnect_spent spentIndexed),
      filter_reverse, updateOps, updateOps, List.map_map, List.map_map]
    refine spentIndex_restored consistent fresh ?_
    intro event member
    rcases append_of_mem member with ⟨past, future, place⟩
    exact ⟨past, traced past event future place⟩

/-- The address index is not restored when an input spends a public key output. -/
theorem not_sameIndexes_of_key {event : IndexEvent}
    (member : event ∈ blockEvents nHeight 0 block.vtx start) (spends : event.spendsKey = true) :
    ¬SameIndexes (undoIndexes env (disconnectBlockIndexes env nHeight block.vtx start)
      (writeIndexes env pindex (connectIndexes env nHeight 0 block.vtx start {}) db)) db := by
  intro same
  -- A public key output has an address, so connecting made an entry for the step.
  rcases address_of_spendsKey env spends with ⟨address, known⟩
  have absent := consistent.activity_absent event address
  have restored := congrFun ((undoIndexes_writeIndexes addressIndexed spentIndexed pindex
    (connectIndexes env nHeight 0 block.vtx start {})
    (disconnectBlockIndexes env nHeight block.vtx start) db).1.symm.trans same.1)
    (event.activityKey nHeight address)
  simp only [connectIndexes_eq addressIndexed, disconnectBlockIndexes_eq ok,
    foldl_append addressIndex fun _ _ => rfl, flatMap_map] at restored
  rw [absent, writeBatch_of_untouched] at restored
  · -- The entry is still there.
    rw [writeBatch_eq_lastOp, getD_eq_iff] at restored
    rcases restored with left | ⟨untouched, _⟩
    · rcases exists_of_lastOp_eq_some left with ⟨op, listed, _, leaves⟩
      rcases mem_map.mp listed with ⟨item, _, rfl⟩
      cases leaves
    rw [lastOp_eq_none_iff] at untouched
    refine untouched (.write (event.activityKey nHeight address) event.activity) ?_ rfl
    refine mem_map.mpr ⟨(event.activityKey nHeight address, event.activity), ?_, rfl⟩
    refine mem_append_right _ (mem_flatMap.mpr ⟨event, member, ?_⟩)
    rw [(connect_indexed addressIndexed event).1, known]
    exact mem_singleton.mpr rfl
  · intro op listed keyed
    rcases mem_map.mp listed with ⟨item, erased, rfl⟩
    rcases mem_append.mp erased with none' | erased
    · exact absurd none' (by simp)
    rcases mem_flatMap.mp erased with ⟨other, otherMember, erased⟩
    rw [mem_reverse] at otherMember
    cases event with
    | output i txhash _ out => cases spends
    | input i txhash j _ coin =>
      have spending := congrArg spending keyed
      cases other with
      | output i' txhash' _ _ =>
        rw [(disconnect_indexed addressIndexed rfl).1] at erased
        rcases mem_map.mp erased with ⟨address', _, rfl⟩
        cases spending
      | input i' txhash' j' prevout' coin' =>
        cases key : coin'.out.scriptPubKey.isPayToPublicKey with
        | true =>
          -- The branch for public keys erases a key that is not a spending.
          simp only [disconnectEntries, disconnectInputBatch, addressIndexed, key, if_true] at erased
          split at erased
          · rw [mem_singleton.mp erased] at spending
            cases spending
          · cases erased
        | false =>
          have noKey : (IndexEvent.input i' txhash' j' prevout' coin').spendsKey = false := key
          rw [(disconnect_indexed addressIndexed noKey).1] at erased
          rcases mem_map.mp erased with ⟨address', _, rfl⟩
          have sameTx : i' = i := congrArg txindex keyed
          have sameInput : j' = j := congrArg index keyed
          subst sameTx sameInput
          have sameCoin := input_unique block.vtx member otherMember
          change coin.out.scriptPubKey.isPayToPublicKey = true at spends
          rw [sameCoin, key] at spends
          cases spends

end

/-- Disconnecting a connected block returns `DISCONNECT_OK` and restores the three indexes, exactly
if the commitments of the block can be collected and no transaction of the block spends an output
that pays to a public key.  The indexes are consistent with transactions among which there is none
of the block's. -/
theorem disconnectBlock_restores_indexes_iff {baseBestBlock : Uint256} {block : CBlock}
    {pindex : BlockPosition} {blockundo : CBlockUndo} {before after : NodeState}
    {old : Uint256 -> Prop} (view : ChainView base before.view)
    (addressIndexed : env.fAddressIndex = true) (spentIndexed : env.fSpentIndex = true)
    (consistent : IndexesConsistent env pindex.nHeight old (before.view.coins (liveCoins base))
      before.blocktree) (fresh : ∀ tx ∈ block.vtx, ¬old tx.hash)
    (connected : (connectBlock env base baseBestBlock block pindex false).run before =
      (.ok (some blockundo), after)) (stored : after.undo pindex.hash = some blockundo) :
    (∃ last, (disconnectBlock env base block pindex).run after = (.ok .ok, last) /\
      SameIndexes last.blocktree before.blocktree) <->
    (env.DIP0003Height <= pindex.nHeight \/ ∀ tx ∈ block.vtx, tx.nType ≠ .quorumCommitment) /\
      spendsPublicKey pindex.nHeight block.vtx (before.view.coins (liveCoins base)) = false := by
  rcases connectBlock_ok view.valid rfl connected with ⟨prev, _, _, done⟩
  refine disconnectBlock_ok_iff done view.chain stored ?_
  intro last _ _ blocktree_eq
  rcases done.checked with ⟨_, _, ok⟩
  have height_pos : 0 < pindex.nHeight := by
    rw [pindex.height_eq prev done.prev_eq]
    exact succ_pos _
  have traced : ∀ past event future,
      blockEvents pindex.nHeight 0 block.vtx (before.view.coins (liveCoins base)) =
        past ++ event :: future ->
      Traced (before.view.coins (liveCoins base)) (block.vtx.map CTransaction.hash) past event := by
    rw [<- done.txs_eq]
    refine traced_blockEvents done.connected height_pos [] view.chain (fun _ _ found => .inl found) ?_
    intro item member
    have listed : item.1 ∈ block.vtx := done.txs_eq ▸ mem_map_of_mem member
    rw [done.txs_eq]
    exact ⟨mem_map_of_mem listed, ok.transactions item.1 listed⟩
  rw [blocktree_eq, <- Bool.not_eq_true, spendsPublicKey_iff block.vtx 0]
  constructor
  · intro same found
    rcases found with ⟨event, member, spends⟩
    exact not_sameIndexes_of_key ok addressIndexed spentIndexed consistent member spends same
  intro none'
  refine sameIndexes_of_walk ok addressIndexed spentIndexed consistent ?_ traced ?_
  · intro txid member
    rcases mem_map.mp member with ⟨tx, listed, rfl⟩
    exact fresh tx listed
  · intro event member
    exact Bool.not_eq_true _ ▸ fun spends => none' ⟨event, member, spends⟩

end

/-! ## The entries of a block that is disconnected -/

section

variable {env : NodeEnv} {nHeight : Nat} (target : IndexEvent -> Prop)

/-- The step is one for an output of the transaction, or for an input, whatever coin it spends. -/
def StepOf (item : CTransaction × Nat) : Prop :=
  (∃ event ∈ outputEvents item.2 item.1, target event) \/
    0 < item.2 /\ ∃ txin ∈ item.1.vin, ∀ j coin,
      target (.input item.2 item.1.hash j txin.prevout coin)

variable (env nHeight)

/-- The batch is made of steps.  The one that is looked for is among them, or still to come. -/
def Collected (later : Prop) (batch : IndexBatch) : Prop :=
  ∃ events : List IndexEvent,
    batch = (events.map (disconnectEntries env nHeight)).foldl append {} /\
    ((∃ event ∈ events, target event) \/ later)

variable {env nHeight target} {later : Prop}

theorem Collected.foldl {now : Prop} {batch : IndexBatch}
    (collected : Collected env nHeight target now batch) (more : List IndexEvent)
    (goes : now -> (∃ event ∈ more, target event) \/ later) : Collected env nHeight target later
      ((more.map (disconnectEntries env nHeight)).foldl append batch) := by
  rcases collected with ⟨events, rfl, found⟩
  refine ⟨events ++ more, by rw [map_append, List.foldl_append], ?_⟩
  rcases found.imp_right goes with ⟨event, member, is⟩ | ⟨event, member, is⟩ | after
  · exact .inl ⟨event, mem_append_left _ member, is⟩
  · exact .inl ⟨event, mem_append_right _ member, is⟩
  · exact .inr after

variable {base : CCoinsView} {pindex : BlockPosition} {state last : NodeState}

theorem Collected.disconnectTransaction {blockUndo : CBlockUndo} {item : CTransaction × Nat}
    {progress next : DisconnectProgress} (collected : Collected env pindex.nHeight target
      (StepOf target item \/ later) progress.indexes)
    (ran : (disconnectTransaction env base pindex blockUndo progress item).run state =
      (.ok next, last)) : Collected env pindex.nHeight target later next.indexes := by
  rcases run_bind_ok_iff.mp ran with ⟨_, _, _, body⟩
  have taken : Collected env pindex.nHeight target ((0 < item.2 /\ ∃ txin ∈ item.1.vin, ∀ j coin,
      target (.input item.2 item.1.hash j txin.prevout coin)) \/ later)
      (disconnectOutputBatches env pindex.nHeight item.2 item.1 progress.indexes) := by
    rw [disconnectOutputBatches_eq]
    refine collected.foldl _ fun todo => ?_
    simp only [mem_reverse]
    exact or_assoc.mp todo
  split at body
  · unfold restoreInputs at body
    split at body
    · cases body
    rename_i txundo _
    simp only [run_bind_ok_iff, run_require_ok_iff, decide_eq_true_eq] at body
    rcases body with ⟨_, _, ⟨length, rfl⟩, loop⟩
    have finished := @foldEach_invariant _ _ _ _ _ (fun rest value => Collected env pindex.nHeight
      target ((∃ entry ∈ rest, ∀ j coin,
        target (.input item.2 item.1.hash j entry.1.1.prevout coin)) \/ later) value.indexes) ?_ _
      _ _ _ _ ?_ loop
    · exact finished.foldl [] fun todo => .inr (todo.resolve_left (by simp))
    · intro entry rest value state last next before round
      simp only [restoreInput, run_bind_ok_iff] at round
      rcases round with ⟨_, _, _, coin, _, _, done⟩
      cases done
      refine before.foldl [.input item.2 item.1.hash entry.2 entry.1.1.prevout
        { coin with nHeight := entry.1.2.nHeight }] ?_
      rintro (⟨other, member, is⟩ | after)
      · rcases mem_cons.mp member with rfl | left
        · exact .inl ⟨_, .head _, is _ _⟩
        · exact .inr (.inl ⟨other, left, is⟩)
      · exact .inr (.inr after)
    · refine taken.foldl [] fun todo => .inr (todo.imp_left ?_)
      rintro ⟨_, txin, member, is⟩
      rw [<- map_fst_zip (le_of_eq length.symm), <- zipIdx_map_fst 0 (zip _ _), List.map_map]
        at member
      rcases mem_map.mp member with ⟨entry, placed, rfl⟩
      exact ⟨entry, mem_reverse.mpr placed, is⟩
  · next first =>
    cases body
    exact taken.foldl [] fun todo => .inr (todo.resolve_left fun spends => first spends.1)

variable {block : CBlock} {result : DisconnectResult}
  (ran : (disconnectBlock env base block pindex).run state = (.ok result, last))
  (done : result ≠ .failed)

include ran done

end

/-! ## Spending a public key hash, and spending a public key -/

namespace IndexSample

open UndoSample

def payToPublicKeyHash : CScript :=
  [0x76, 0xa9, 0x14] ++ replicate 20 1 ++ [0x88, 0xac]

def payToPublicKey : CScript :=
  [0x21, 0x02] ++ replicate 32 1 ++ [0xac]

variable (script : CScript)

def coin : Coin :=
  { out := ⟨100, script⟩, fCoinBase := false, nHeight := 1 }

def base : CCoinsView :=
  fun outpoint => if outpoint = funding then some (coin script) else none

def env : NodeEnv :=
  NodeEnv.permissive 0 true true

/-- Spends the coin and pays to a public key hash. -/
def first : CTransaction :=
  { vin := [{ prevout := funding }], vout := [⟨90, payToPublicKeyHash⟩],
    hash := 21 }

/-- Spends the output of the transaction before it. -/
def second : CTransaction :=
  { vin := [{ prevout := ⟨21, 0⟩ }],
    vout := [⟨80, payToPublicKey⟩], hash := 22 }

def block : CBlock :=
  UndoSample.block [coinbase, first, second]

def pindex : BlockPosition :=
  UndoSample.pindex

def before : NodeState :=
  { view := CCoinsViewCache.new.setBestBlock 5
    evoDb := { db := fun key => if key = .bestBlock then some (.hash 5) else none }
    blocktree :=
      { addressIndex := fun _ => none
        addressUnspentIndex := fun key =>
          if (indexedAddress env.hash160 script).map (unspentKeyAt funding) = some key then
            some (unspentValueOf (coin script))
          else
            none
        spentIndex := fun _ => none
        timestampIndex := fun _ => none }
    undo := fun _ => none }

def after : NodeState :=
  ((connectBlock env (base script) 0 block pindex false).run (before script)).2

def undo : CBlockUndo :=
  { vtxundo := [[coin script], [{ out := ⟨90, payToPublicKeyHash⟩,
                                  fCoinBase := false, nHeight := 2 }]] }

theorem coins_eq : (before script).view.coins (liveCoins (base script)) = base script := by
  change new.coins (liveCoins (base script)) = _
  rw [coins_new]
  funext outpoint
  rw [liveCoins, base]
  split <;> rfl

theorem view_ok {script : CScript} (spendable : script.isUnspendable = false) :
    ChainView (base script) (before script).view where
  valid := valid_new _
  chain := by
    intro outpoint found held
    rw [coins_eq, base] at held
    split at held
    · cases held
      exact ⟨rfl, Nat.one_pos, spendable⟩
    · cases held

theorem indexes_consistent : IndexesConsistent env pindex.nHeight (fun txid => txid = 7)
      ((before script).view.coins (liveCoins (base script))) (before script).blocktree where
  address_height := by
    intro key value found
    cases found
  unspent_held := by
    intro outpoint held address there known
    rw [coins_eq, base] at there
    split at there
    · next same =>
      cases there
      subst same
      change indexedAddress env.hash160 script = some address at known
      simp only [before, known, map_some, if_true]
    · cases there
  unspent_old := by
    intro key value found
    simp only [before] at found
    split at found
    · next known =>
      rcases map_eq_some_iff.mp known with ⟨address, _, rfl⟩
      rfl
    · cases found
  spent_absent := fun _ _ _ => rfl
  spent_old := by
    intro key value found
    cases found

theorem fresh : ∀ tx ∈ block.vtx, ¬tx.hash = 7 := by
  decide

end IndexSample

open IndexSample in
theorem disconnectBlock_restores_indexes_iff_sample : ∃ last,
      (disconnectBlock env (base payToPublicKeyHash) block pindex).run (after payToPublicKeyHash) =
        (.ok .ok, last) /\
      SameIndexes last.blocktree (before payToPublicKeyHash).blocktree := by
  have value : ((connectBlock env (base payToPublicKeyHash) 0 block pindex false).run
      (before payToPublicKeyHash)).1 = .ok (some (undo payToPublicKeyHash)) := by
    decide +kernel
  have connected : (connectBlock env (base payToPublicKeyHash) 0 block pindex false).run
      (before payToPublicKeyHash) =
        (.ok (some (undo payToPublicKeyHash)), after payToPublicKeyHash) := by
    rw [<- value, after]
  have stored : (after payToPublicKeyHash).undo pindex.hash = some (undo payToPublicKeyHash) := by
    decide +kernel
  refine (disconnectBlock_restores_indexes_iff (view_ok rfl) rfl rfl
    (indexes_consistent payToPublicKeyHash) fresh connected stored).mpr ⟨.inl (by decide), ?_⟩
  rw [coins_eq]
  decide +kernel

open IndexSample in
theorem spent_public_key_stays_in_the_index :
    IndexesConsistent env pindex.nHeight (fun txid => txid = 7)
        ((before payToPublicKey).view.coins (liveCoins (base payToPublicKey)))
        (before payToPublicKey).blocktree /\
      ((connectBlock env (base payToPublicKey) 0 block pindex false).run
        (before payToPublicKey)).1 = .ok (some (undo payToPublicKey)) /\
      ((disconnectBlock env (base payToPublicKey) block pindex).run (after payToPublicKey)).1 =
      .ok .ok /\ ¬SameIndexes
        ((disconnectBlock env (base payToPublicKey) block pindex).run (after payToPublicKey)).2.blocktree
        (before payToPublicKey).blocktree := by
  refine ⟨indexes_consistent payToPublicKey, by decide +kernel, by decide +kernel, ?_⟩
  intro same
  let key : CAddressIndexKey :=
    { type := 1, hashBytes := 0x02 :: replicate 19 1, blockHeight := 2, txindex := 1,
      txhash := 21, index := 0, spending := true }
  have left : ((disconnectBlock env (base payToPublicKey) block pindex).run
      (after payToPublicKey)).2.blocktree.addressIndex key = some (-100) := by
    decide +kernel
  rw [same.1] at left
  cases left

end StakeCubeCoin.Validation
