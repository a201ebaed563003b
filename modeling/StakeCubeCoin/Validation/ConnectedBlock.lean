import StakeCubeCoin.Validation.Represents

namespace StakeCubeCoin.Validation

open Primitives Coins Evo Library Library.Action List CCoinsViewCache Action

/-!
# What a connected block has done

The calls of `ConnectBlock` that change coins are read off one by one: `UpdateCoins`
connects one transaction in the sense of `TxConnected`, the loop connects all of them,
and a call that succeeds leaves exactly the coins, the undo data and the index entries
described by `BlockConnected`.
-/

variable {env : NodeEnv} {base : CCoinsView} {known : List COutPoint}
variable {disk : CBlockTreeDB × Store Uint256 CBlockUndo} {coins : UtxoSet}

theorem spendInputs_ok (vin : List CTxIn) {coins : UtxoSet} {state last : NodeState}
    {txundo : CTxUndo} :
    Represents base known disk coins state -> (vin.map CTxIn.prevout).Nodup ->
      (∀ txin ∈ vin, (coins txin.prevout).isSome = true) ->
      (spendInputs base vin).run state = (.ok txundo, last) ->
      txundo = (vin.map CTxIn.prevout).map (coinAt coins) /\
        Represents base known disk (eraseAll coins (vin.map CTxIn.prevout)) last := by
  induction vin generalizing coins state last txundo with
  | nil =>
    intro represents _ _ finished
    cases finished
    exact ⟨rfl, represents⟩
  | cons txin rest ih =>
    intro represents distinct held finished
    rw [map_cons, nodup_cons] at distinct
    rcases run_bind_ok_iff.mp finished with ⟨spent, middle, firstRun, restRun⟩
    have spent_eq := Except.ok.inj (congrArg Prod.fst firstRun)
    have middle_eq : { state with view := (state.view.spendCoin base txin.prevout).2 } = middle :=
      congrArg Prod.snd firstRun
    cases spent with
    | none => cases restRun
    | some coin =>
      -- The coin moved out is the unspent one.
      have moved : coin = coinAt coins txin.prevout := by
        have alive := spendCoin_fst base state.view txin.prevout
        rw [spent_eq, represents.coins_eq, eq_some_coinAt (held txin (.head _))] at alive
        exact Coin.eq_of_live_eq_some alive
      have spentRepresents := represents.spendCoin txin.prevout
      rw [middle_eq] at spentRepresents
      rcases run_bind_ok_iff.mp restRun with ⟨_, _, restSpent, collected⟩
      cases collected
      have apart : ∀ other ∈ rest, other.prevout ≠ txin.prevout := by
        intro other member same
        exact distinct.1 (same ▸ mem_map_of_mem member)
      have restResult := ih spentRepresents distinct.2 (by
        intro other member
        rw [Function.update_of_ne (apart other member)]
        exact held other (.tail _ member)) restSpent
      refine ⟨?_, restResult.2⟩
      rw [map_cons, restResult.1]
      congr 1
      apply map_congr_left
      intro outpoint member
      rcases mem_map.mp member with ⟨other, otherMember, rfl⟩
      rw [coinAt, coinAt, Function.update_of_ne (apart other otherMember)]

theorem addLive_eq_writeBatch (tx : CTransaction) (nHeight : Nat) (item : CTxOut × Nat) :
    addLive coins ⟨tx.hash, item.2⟩ (outputCoin tx nHeight item.1) =
      writeBatch coins (outputOp tx nHeight item).toList := by
  unfold addLive outputOp
  change (if item.1.scriptPubKey.isUnspendable = true then coins else _) = _
  split <;> rfl

variable {last state : NodeState}

theorem addCoin_ok (represents : Represents base known disk coins state) {outpoint : COutPoint}
    {coin : Coin} {overwrite : Bool} {result : Unit} (member : outpoint ∈ known)
    (finished : (addCoin outpoint coin overwrite).run state = (.ok result, last)) :
    Represents base known disk (addLive coins outpoint coin) last /\
      (overwrite = false -> coin.out.scriptPubKey.isUnspendable = false -> coins outpoint = none) := by
  cases added : state.view.addCoin outpoint coin overwrite with
  | error error =>
    rw [run_addCoin_of_error added] at finished
    cases finished
  | ok next =>
    rw [run_addCoin_of_ok added] at finished
    have last_eq : { state with view := next } = last := congrArg Prod.snd finished
    subst last_eq
    have shape := added
    unfold CCoinsViewCache.addCoin at shape
    split at shape
    · cases shape
    next unspent =>
    cases spendable : coin.out.scriptPubKey.isUnspendable with
    | true =>
      -- Such a coin is not added at all.
      rw [if_pos spendable] at shape
      cases shape
      rw [addLive, if_pos spendable]
      exact ⟨represents, by simp⟩
    | false =>
      have allowed : overwrite = true \/ coins outpoint = none := by
        cases overwrite with
        | true => exact .inl rfl
        | false =>
          right
          rw [<- represents.coins_eq]
          rw [if_neg (by simp [spendable])] at shape
          simp only at shape
          split at shape
          · cases shape
          next allowed =>
          cases located : state.view.find outpoint with
          | none =>
            rw [coins_of_find_none _ located]
            exact represents.looked outpoint member located
          | some _ =>
            rw [coins_of_find_some _ located, Coin.live_eq_none_iff]
            simpa [located] using allowed
      rcases addCoin_spec represents.valid (Bool.not_eq_true _ ▸ unspent) (represents.coins_eq ▸ allowed) with
        ⟨other, otherAdded, valid, coins_eq, _⟩
      rw [added] at otherAdded
      cases otherAdded
      rw [represents.coins_eq] at coins_eq
      refine ⟨represents.of_view valid coins_eq fun other => find_addCoin_of_none added, ?_⟩
      exact fun noOverwrite _ => allowed.resolve_left (by simp [noOverwrite])

variable {tx : CTransaction}

theorem addOutputs_ok {nHeight : Nat} (items : List (CTxOut × Nat)) {coins : UtxoSet}
    {state last : NodeState} {result : Unit} :
    Represents base known disk coins state ->
      (∀ item ∈ items, ⟨tx.hash, item.2⟩ ∈ known) ->
      (forEach (addOutput base tx nHeight false) items).run state = (.ok result, last) ->
      Represents base known disk (writeBatch coins (items.filterMap (outputOp tx nHeight))) last /\
        (tx.isCoinBase = false -> ∀ op ∈ items.filterMap (outputOp tx nHeight),
          coins op.key = none) := by
  induction items generalizing coins state last result with
  | nil =>
    intro represents _ finished
    cases finished
    exact ⟨represents, nofun⟩
  | cons item rest ih =>
    intro represents allKnown finished
    simp only [forEach, addOutput, run_bind_ok_iff] at finished
    rcases finished with ⟨_, middle, ⟨_, _, decided, added⟩, restRun⟩
    cases decided
    have first := addCoin_ok represents (allKnown item (.head _)) added
    have batch : (item :: rest).filterMap (outputOp tx nHeight) =
      (outputOp tx nHeight item).toList ++ rest.filterMap (outputOp tx nHeight) := by
      rw [filterMap_cons]
      cases outputOp tx nHeight item with
      | none => rfl
      | some op => rfl
    have firstRepresents := first.1
    change Represents base known disk (addLive coins _
      (outputCoin tx nHeight item.1)) middle at firstRepresents
    rw [addLive_eq_writeBatch] at firstRepresents
    have restResult := ih firstRepresents (forall_mem_cons.mp allKnown).2 restRun
    rw [batch, writeBatch_append]
    refine ⟨restResult.1, ?_⟩
    intro ordinary op member
    rcases mem_append.mp member with now | later
    · unfold outputOp at now
      split at now
      · cases now
      · next spendable =>
        rw [mem_singleton.mp now]
        exact first.2 ordinary (Bool.not_eq_true _ ▸ spendable)
    · -- What is absent after a write was absent before it.
      have after := restResult.2 ordinary op later
      cases made : outputOp tx nHeight item with
      | none =>
        rw [made] at after
        exact after
      | some written =>
        have wrote : ∃ value, written.value = some value := by
          unfold outputOp at made
          split at made
          · cases made
          · rw [<- Option.some.inj made]
            exact ⟨_, rfl⟩
        rcases wrote with ⟨value, wrote⟩
        rw [made] at after
        change written.apply coins op.key = none at after
        by_cases same : op.key = written.key
        · rw [same, BatchOp.apply_key, wrote] at after
          cases after
        · rw [BatchOp.apply_of_ne coins written same] at after
          exact after

theorem updateCoins_ok {nHeight : Nat}
    {txundo : CTxUndo} (represents : Represents base known disk coins state)
    (ok : TransactionOk tx) (allKnown : ∀ outpoint ∈ outPoints tx, outpoint ∈ known)
    (held : tx.isCoinBase = false -> ∀ txin ∈ tx.vin, (coins txin.prevout).isSome = true)
    (unused : tx.isCoinBase = true -> ∀ outpoint ∈ outPoints tx, coins outpoint = none)
    (finished : (updateCoins base tx nHeight).run state = (.ok txundo, last)) :
    TxConnected nHeight tx txundo coins (connectCoins tx nHeight coins) /\
      Represents base known disk (connectCoins tx nHeight coins) last := by
  simp only [updateCoins, run_bind_ok_iff] at finished
  rcases finished with ⟨_, middle, spentRun, _, _, addedRun, returned⟩
  cases returned
  have spentInputs : (∀ outpoint ∈ inputs tx, (coins outpoint).isSome = true) /\
    txundo = (inputs tx).map (coinAt coins) /\ (inputs tx).Nodup /\
    Represents base known disk (eraseAll coins (inputs tx)) middle := by
    unfold inputs
    unfold spendTransaction at spentRun
    split at spentRun
    · next coinbase =>
      cases spentRun
      rw [if_pos coinbase]
      exact ⟨nofun, rfl, nodup_nil, represents⟩
    · next ordinary =>
      rw [if_neg ordinary]
      have present := held (Bool.not_eq_true _ ▸ ordinary)
      have spent := spendInputs_ok tx.vin represents ok.distinct present spentRun
      refine ⟨?_, spent.1, ok.distinct, spent.2⟩
      intro outpoint member
      rcases mem_map.mp member with ⟨txin, listed, rfl⟩
      exact present txin listed
  rcases spentInputs with ⟨inputsHeld, spent, distinct, middleRepresents⟩
  have listed : ∀ item ∈ tx.vout.zipIdx, (⟨tx.hash, item.2⟩ : COutPoint) ∈ outPoints tx := by
    intro item member
    refine mem_map.mpr ⟨item.2, mem_range.mpr ?_, rfl⟩
    simpa using snd_lt_of_mem_zipIdx member
  have added := addOutputs_ok tx.vout.zipIdx middleRepresents
    (fun item member => allKnown _ (listed item member)) addedRun
  refine ⟨⟨inputsHeld, spent, distinct, ?_, rfl⟩, added.1⟩
  intro op member
  cases coinbase : tx.isCoinBase with
  | false => exact added.2 coinbase op member
  | true =>
    rcases mem_outputOps member with ⟨out, n, place, _, made⟩
    rw [made, eraseAll_apply]
    split
    · rfl
    · exact unused coinbase _ (listed (out, n) place)

def inputEntries (env : NodeEnv) (nHeight i : Nat) (tx : CTransaction) (coins : UtxoSet)
    (batch : IndexBatch) : IndexBatch :=
  if tx.isCoinBase then batch
  else if env.fAddressIndex || env.fSpentIndex then
    tx.vin.zipIdx.foldl (fun batch item => batch.append
      (connectInputBatch env nHeight i tx.hash item.2 item.1.prevout
        (coinAt coins item.1.prevout).out)) batch
  else batch

variable {pindex : BlockPosition} {progress result : ConnectProgress}

theorem connectInputs_ok {i : Nat}
    (represents : Represents base known disk coins state) (ordinary : tx.isCoinBase = false)
    (finished : (connectInputs env base pindex i tx progress).run state = (.ok result, last)) :
    (∀ txin ∈ tx.vin, (coins txin.prevout).isSome = true) /\ result.vtxundo = progress.vtxundo /\
      result.indexes = inputEntries env pindex.nHeight i tx coins progress.indexes := by
  simp only [connectInputs, run_bind_ok_iff, run_require_ok_iff] at finished
  rcases finished with
    ⟨_, _, feeRun, _, _, ⟨_, rfl⟩, heights, _, heightsRun, _, _, ⟨_, rfl⟩, indexes, _, indexRun, returned⟩
  cases returned
  have checkedRepresents :=
    (represents_stable.keeps_checkTxInputs tx pindex.nHeight).of_run feeRun represents
  have held : ∀ txin ∈ tx.vin, (coins txin.prevout).isSome = true := by
    rcases run_bind_ok_iff.mp feeRun with ⟨_, _, loop, _⟩
    refine Action.forEach_collect (fun txin _ => represents_stable.keeps_haveInput txin _) ?_ represents loop
    intro txin _ current next result currentRepresents round
    rcases run_bind_ok_iff.mp round with ⟨found, _, asked, required⟩
    rw [haveCoin_run, currentRepresents.coins_eq] at asked
    have value : (coins txin.prevout).isSome = found := Except.ok.inj (congrArg Prod.fst asked)
    rw [value]
    exact (run_require_ok_iff.mp required).1
  have readRepresents := (keeps_foldEach tx.vin (fun heights txin _ =>
    (represents_stable.keeps_accessCoin txin.prevout).bind fun _ => keeps_pure _) []).of_run heightsRun
    checkedRepresents
  refine ⟨held, rfl, ?_⟩
  unfold inputEntries
  rw [if_neg (by rw [ordinary]; decide)]
  unfold indexInputs at indexRun
  split at indexRun
  · next indexed =>
    rw [if_pos indexed]
    refine foldEach_value
      (fun batch item _ => represents_stable.keeps_indexInput env pindex.nHeight i tx.hash batch item) ?_
      readRepresents indexRun
    intro item member batch current next result currentRepresents round
    rcases run_bind_ok_iff.mp round with ⟨_, _, access, appended⟩
    cases appended
    have there := held item.1 (fst_mem_of_mem_zipIdx member)
    rw [accessCoin_value currentRepresents (eq_some_coinAt there) access]
  · next skipped =>
    rw [if_neg skipped]
    cases indexRun
    rfl

variable {fJustCheck : Bool}

theorem connectTransaction_ok {i : Nat}
    (represents : Represents base known disk coins state) (ok : TransactionOk tx)
    (allKnown : ∀ outpoint ∈ outPoints tx, outpoint ∈ known)
    (unused : tx.isCoinBase = true -> ∀ outpoint ∈ outPoints tx, coins outpoint = none)
    (finished : (connectTransaction env base pindex fJustCheck progress (tx, i)).run state =
      (.ok result, last)) :
    ∃ txundo, TxConnected pindex.nHeight tx txundo coins (connectCoins tx pindex.nHeight coins) /\
      Represents base known disk (connectCoins tx pindex.nHeight coins) last /\
      result.vtxundo = (if 0 < i then progress.vtxundo ++ [txundo] else progress.vtxundo) /\
      result.indexes = connectOutputBatches env pindex.nHeight i tx
        (inputEntries env pindex.nHeight i tx coins progress.indexes) := by
  simp only [connectTransaction, run_bind_ok_iff] at finished
  rcases finished with ⟨funded, fundedState, fundedRun, counted, _, countedRun, checked, _, checkedRun,
    txundo, _, updateRun, returned⟩
  cases returned
  have fundedResult : Represents base known disk coins fundedState /\
    (tx.isCoinBase = false -> ∀ txin ∈ tx.vin, (coins txin.prevout).isSome = true) /\
    funded.vtxundo = progress.vtxundo /\
    funded.indexes = inputEntries env pindex.nHeight i tx coins progress.indexes := by
    unfold fundTransaction at fundedRun
    split at fundedRun
    · next coinbase =>
      cases fundedRun
      refine ⟨represents, ?_, rfl, ?_⟩
      · intro ordinary
        rw [coinbase] at ordinary
        cases ordinary
      · rw [inputEntries, if_pos coinbase]
    · next ordinary =>
      have inputsOk := connectInputs_ok represents (Bool.not_eq_true _ ▸ ordinary) fundedRun
      exact ⟨(represents_stable.keeps_connectInputs env pindex i tx progress).of_run fundedRun represents,
        fun _ => inputsOk.1, inputsOk.2.1, inputsOk.2.2⟩
  rcases fundedResult with ⟨fundedRepresents, held, fundedUndo, fundedIndexes⟩
  have countedRepresents :=
    (represents_stable.keeps_countSigOps env pindex tx funded).of_run countedRun fundedRepresents
  have countedSame : counted.vtxundo = funded.vtxundo /\ counted.indexes = funded.indexes := by
    simp only [countSigOps, run_bind_ok_iff] at countedRun
    rcases countedRun with ⟨_, _, _, _, _, _, _, _, _, returned⟩
    cases returned
    exact ⟨rfl, rfl⟩
  have checkedRepresents :=
    (represents_stable.keeps_connectScripts env pindex tx fJustCheck counted).of_run checkedRun
    countedRepresents
  have checkedSame : checked.vtxundo = counted.vtxundo /\ checked.indexes = counted.indexes := by
    simp only [connectScripts] at checkedRun
    split at checkedRun
    · simp only [run_bind_ok_iff] at checkedRun
      rcases checkedRun with ⟨_, _, _, _, _, _, returned⟩
      cases returned
      exact ⟨rfl, rfl⟩
    · cases checkedRun
      exact ⟨rfl, rfl⟩
  have updated := updateCoins_ok checkedRepresents ok allKnown held unused updateRun
  refine ⟨txundo, updated.1, updated.2, ?_, ?_⟩
  · rw [checkedSame.1, countedSame.1, fundedUndo]
  · rw [checkedSame.2, countedSame.2, fundedIndexes]

/-- The index entries of a list of transactions, the first of which has index `i`. -/
def connectIndexes (env : NodeEnv) (nHeight : Nat) :
    Nat -> List CTransaction -> UtxoSet -> IndexBatch -> IndexBatch
  | _, [], _, batch => batch
  | i, tx :: rest, coins, batch =>
    connectIndexes env nHeight (i + 1) rest (connectCoins tx nHeight coins)
      (connectOutputBatches env nHeight i tx (inputEntries env nHeight i tx coins batch))

/-- The loop over the transactions from one on, of which only the first of all may be a coinbase;
then none of the outputs is there. -/
theorem connectLoop_ok (vtx : List CTransaction) (ok : ∀ tx ∈ vtx, TransactionOk tx)
    (allKnown : ∀ outpoint ∈ vtx.flatMap outPoints, outpoint ∈ known) :
    ∀ {i : Nat} {coins : UtxoSet} {state last : NodeState} {progress result : ConnectProgress},
      (∀ tx ∈ vtx.drop (1 - i), tx.isCoinBase = false) ->
      (i = 0 -> ∀ outpoint ∈ vtx.flatMap outPoints, coins outpoint = none) ->
      Represents base known disk coins state ->
      (foldEach (connectTransaction env base pindex fJustCheck) (vtx.zipIdx i) progress).run state =
        (.ok result, last) -> ∃ txs after, txs.map Prod.fst = vtx /\
        TxsConnected pindex.nHeight txs coins after /\ Represents base known disk after last /\
        result.vtxundo = progress.vtxundo ++ (txs.drop (1 - i)).map Prod.snd /\
        result.indexes = connectIndexes env pindex.nHeight i vtx coins progress.indexes := by
  induction vtx with
  | nil =>
    intro i coins state last progress result _ _ represents finished
    cases finished
    exact ⟨[], coins, rfl, .nil coins, represents, by simp, rfl⟩
  | cons tx rest ih =>
    intro i coins state last progress result ordinary unused represents finished
    rcases run_bind_ok_iff.mp finished with ⟨_, _, firstRun, restRun⟩
    have own : ∀ outpoint ∈ outPoints tx, outpoint ∈ (tx :: rest).flatMap outPoints :=
      fun outpoint member => mem_flatMap.mpr ⟨tx, .head _, member⟩
    have first : tx.isCoinBase = true -> i = 0 := by
      intro coinbase
      by_contra later
      rw [Nat.sub_eq_zero_of_le (Nat.pos_of_ne_zero later)] at ordinary
      exact absurd ((ordinary tx (.head _)).symm.trans coinbase) (by decide)
    rcases connectTransaction_ok represents (ok tx (.head _)) (fun outpoint member => allKnown _ (own _ member))
      (fun coinbase outpoint member => unused (first coinbase) _ (own _ member)) firstRun with
      ⟨txundo, connected, middleRepresents, nextUndo, nextIndexes⟩
    rcases ih (forall_mem_cons.mp ok).2 (fun outpoint member => allKnown _ (mem_append_right _ member))
      (i := i + 1) (by cases i <;> simp_all) nofun middleRepresents restRun with
      ⟨txs, after, txs_eq, restConnected, lastRepresents, lastUndo, lastIndexes⟩
    refine ⟨(tx, txundo) :: txs, after, by rw [map_cons, txs_eq],
      .cons connected restConnected, lastRepresents, ?_, ?_⟩
    · rw [lastUndo, nextUndo]
      cases i with
      | zero => rfl
      | succ i => simp
    · rw [lastIndexes, nextIndexes]
      rfl

variable {block : CBlock}

/-! ## The checks before the transactions -/

/-- After the check of all outputs none of them is among the coins, and all of them
have been looked up. -/
theorem checkOverwrites_ok {failure : Failure} (outpoints : List COutPoint) {known : List COutPoint}
    {state last : NodeState} {result : Unit} :
    Represents base known disk coins state ->
      (forEach (fun outpoint => haveCoin base outpoint >>= fun have_coin =>
        require (!have_coin) failure) outpoints).run state = (.ok result, last) ->
      Represents base (known ++ outpoints) disk coins last /\
        ∀ outpoint ∈ outpoints, coins outpoint = none := by
  induction outpoints generalizing known state last result with
  | nil =>
    intro represents finished
    cases finished
    rw [append_nil]
    exact ⟨represents, nofun⟩
  | cons outpoint _ ih =>
    intro represents finished
    simp only [forEach, run_bind_ok_iff, haveCoin_run, run_require_ok_iff] at finished
    rcases finished with ⟨_, _, ⟨_, _, asked, unused, rfl⟩, restRun⟩
    cases asked
    have fetched := represents.fetchCoin outpoint
    have firstRepresents : Represents base (known ++ [outpoint]) disk coins
      { state with view := state.view.fetchCoin base outpoint } := by
      refine ⟨fetched.valid, fetched.coins_eq, ?_, fetched.disk_eq⟩
      intro other member absent
      rcases mem_append.mp member with before | now
      · exact fetched.looked other before absent
      rw [mem_singleton.mp now] at absent ⊢
      rcases fetchCoin_cases base state.view outpoint with ⟨kept, unknown⟩ | ⟨_, _, _, added⟩
      · rw [kept] at absent
        simp only [liveCoins, unknown absent, Option.bind_none]
      · rw [added, find_set_self] at absent
        cases absent
    have restResult := ih firstRepresents restRun
    rw [append_assoc] at restResult
    refine ⟨restResult.1, ?_⟩
    intro other member
    rcases mem_cons.mp member with now | later
    · rw [represents.coins_eq] at unused
      rw [now]
      simpa using unused
    · exact restResult.2 other later

theorem undoSpecialTx_of_processed {vtx : List CTransaction} {fCheck : Bool} {result : Unit}
    (finished : (processSpecialTxsInBlock env base vtx pindex fJustCheck fCheck).run state =
      (.ok result, last)) : vtx.all undoSpecialTx = true := by
  rcases run_bind_ok_iff.mp finished with ⟨_, _, loop, _⟩
  rw [all_eq_true]
  have kept : ∀ tx ∈ vtx, Keeps (fun _ : NodeState => True)
    (checkSpecialTx env base tx pindex fCheck >>= fun _ => processSpecialTx tx) :=
    fun _ _ _ _ => trivial
  refine forEach_collect kept ?_ trivial loop
  intro tx _ current next _ _ round
  rcases run_bind_ok_iff.mp round with ⟨_, _, _, processed⟩
  exact (run_require_ok_iff.mp processed).1

/-- What a call of `ConnectBlock` has done that returned undo data.  The coins before and after are
sets of unspent outputs, which the states of the node represent. -/
structure BlockConnected (env : NodeEnv) (base : CCoinsView) (baseBestBlock : Uint256)
    (block : CBlock) (pindex : BlockPosition) (blockundo : CBlockUndo) (before after : NodeState)
    (prev : PrevPosition) (txs : List (CTransaction × CTxUndo)) (start final : UtxoSet) : Prop where
  prev_eq : pindex.pprev = some prev
  best : (before.view.getBestBlock baseBestBlock).1 = prev.hash
  checked : ∃ coinbase others, BlockOk block coinbase others
  txs_eq : txs.map Prod.fst = block.vtx
  connected : TxsConnected pindex.nHeight txs start final
  undo_eq : blockundo.vtxundo = txs.tail.map Prod.snd
  unused : ∀ outpoint ∈ block.vtx.flatMap outPoints, start outpoint = none
  represents : Represents base (block.vtx.flatMap outPoints)
    (writeIndexes env pindex (connectIndexes env pindex.nHeight 0 block.vtx start {})
      before.blocktree, after.undo) final after
  evoDb : after.evoDb.verifyBestBlock pindex.hash = true
  special : block.vtx.all undoSpecialTx = true
  commitments : env.DIP0003Height <= pindex.nHeight ->
    ∃ qcs, getCommitmentsFromBlock env block.vtx pindex = .ok qcs

theorem connectPreamble_ok {baseBestBlock : Uint256} {result : Unit}
    (represents : Represents base known disk coins state)
    (finished : (connectPreamble env baseBestBlock block pindex fJustCheck).run state =
      (.ok result, last)) : (∃ coinbase others, BlockOk block coinbase others) /\
      pindex.hashPrevBlock = (state.view.getBestBlock baseBestBlock).1 /\
      Represents base known disk coins last := by
  simp only [connectPreamble, run_bind_ok_iff, run_require_ok_iff] at finished
  rcases finished with ⟨_, _, ⟨_, rfl⟩, _, again, blockRun, _, _, ⟨_, rfl⟩, _, _, ⟨_, rfl⟩, _, _,
    bestRun, _, _, ⟨prev, rfl⟩, _, _, readRun, _, rfl⟩
  cases readRun
  have blockResult : checkBlock env.toCheckEnv block (!fJustCheck) (!fJustCheck) = none /\
    again = state := by
    unfold checkBlockAgain at blockRun
    split at blockRun
    · split at blockRun <;> cases blockRun
    · next passed => exact ⟨passed, (congrArg Prod.snd blockRun).symm⟩
  rcases blockResult with ⟨checked, rfl⟩
  have bestRepresents :=
    (represents_stable.keeps_getBestBlock baseBestBlock).of_run bestRun represents
  have best_eq := Except.ok.inj (congrArg Prod.fst bestRun)
  unfold checkBlock at checked
  split at checked
  · cases checked
  split at checked
  · cases checked
  refine ⟨blockOk_of_checkBlockTransactions checked, ?_, bestRepresents⟩
  rw [best_eq]
  exact of_decide_eq_true prev

theorem connectTransactions_ok {prev : PrevPosition}
    {coinbase : CTransaction} {others : List CTransaction} (ok : BlockOk block coinbase others)
    (represents : Represents base [] disk coins state)
    (finished : (connectTransactions env base block pindex prev fJustCheck).run state =
      (.ok progress, last)) :
    ∃ txs final, txs.map Prod.fst = block.vtx /\ TxsConnected pindex.nHeight txs coins final /\
      progress.vtxundo = txs.tail.map Prod.snd /\
      progress.indexes = connectIndexes env pindex.nHeight 0 block.vtx coins {} /\
      (∀ outpoint ∈ block.vtx.flatMap outPoints, coins outpoint = none) /\
      Represents base (block.vtx.flatMap outPoints) disk final last /\
      block.vtx.all undoSpecialTx = true /\ (env.DIP0003Height <= pindex.nHeight ->
        ∃ qcs, getCommitmentsFromBlock env block.vtx pindex = .ok qcs) := by
  simp only [connectTransactions, run_bind_ok_iff, run_require_ok_iff] at finished
  rcases finished with ⟨_, _, overwriteRun, _, _, ⟨_, rfl⟩, _, _, specialRun, _, _, loopRun, _, _,
    epilogueRun, returned⟩
  cases returned
  rcases checkOverwrites_ok (block.vtx.flatMap outPoints) represents overwriteRun with
    ⟨overwriteRepresents, unused⟩
  have processedRepresents :=
    (represents_stable.keeps_processSpecialTxsInBlock env block.vtx pindex fJustCheck
    (env.fScriptChecks pindex)).of_run specialRun overwriteRepresents
  rcases connectLoop_ok block.vtx ok.transactions (fun _ member => member)
    (by rw [ok.shape]; exact ok.rest) (fun _ => unused) processedRepresents loopRun with
    ⟨txs, final, txs_eq, connected, loopRepresents, undo_eq, indexes_eq⟩
  rw [nil_append, drop_one] at undo_eq
  have epilogueKeeps : Keeps (Represents base (block.vtx.flatMap outPoints) disk final)
    (connectEpilogue env block.vtx pindex prev progress) :=
    (keeps_require _ _).bind fun _ => (keeps_require _ _).bind fun _ =>
      (keeps_require _ _).bind fun _ => keeps_require _ _
  refine ⟨txs, final, txs_eq, connected, undo_eq, indexes_eq, unused,
    epilogueKeeps.of_run epilogueRun loopRepresents, undoSpecialTx_of_processed specialRun, ?_⟩
  intro active
  simp only [processSpecialTxsInBlock, run_bind_ok_iff] at specialRun
  rcases specialRun with ⟨_, _, _, _, _, quorumRun, _⟩
  unfold processQuorumBlock at quorumRun
  rw [if_neg (not_lt.mpr active)] at quorumRun
  cases collected : getCommitmentsFromBlock env block.vtx pindex with
  | error _ =>
    rw [collected] at quorumRun
    cases quorumRun
  | ok qcs => exact ⟨qcs, rfl⟩

theorem connectWrites_ok {blockundo : CBlockUndo}
    (represents : Represents base known disk coins state)
    (finished : (connectWrites env pindex progress).run state = (.ok blockundo, last)) :
    blockundo.vtxundo = progress.vtxundo /\
      Represents base known (writeIndexes env pindex progress.indexes disk.1, last.undo) coins last /\
      last.evoDb.verifyBestBlock pindex.hash = true := by
  simp only [connectWrites, run_bind_ok_iff] at finished
  rcases finished with ⟨_, undoWritten, undoRun, _, _, changeRun, returned⟩
  cases returned
  cases changeRun
  have written : undoWritten.view = state.view /\ undoWritten.blocktree = state.blocktree := by
    have result := congrArg Prod.snd undoRun
    dsimp only [writeUndoDataForBlock, change, run] at result
    rw [<- result]
    split <;> exact ⟨rfl, rfl⟩
  refine ⟨rfl, ⟨?_, ?_, ?_, ?_⟩, CEvoDB.verifyBestBlock_writeBestBlock _ _⟩
  · change (undoWritten.view.setBestBlock pindex.hash).Valid (liveCoins base)
    rw [written.1]
    exact represents.valid
  · change (undoWritten.view.setBestBlock pindex.hash).coins (liveCoins base) = coins
    rw [written.1]
    exact represents.coins_eq
  · change ∀ outpoint, _ -> (undoWritten.view.setBestBlock pindex.hash).find outpoint = none -> _
    rw [written.1]
    exact represents.looked
  · change (writeIndexes env pindex progress.indexes undoWritten.blocktree, _) = _
    rw [written.2, <- represents.disk_eq]

theorem connectBlock_ok {baseBestBlock : Uint256} {blockundo : CBlockUndo}
    {before after : NodeState} {start : UtxoSet} (valid : before.view.Valid (liveCoins base))
    (coins_eq : before.view.coins (liveCoins base) = start)
    (finished : (connectBlock env base baseBestBlock block pindex false).run before =
      (.ok (some blockundo), after)) : ∃ prev txs, ∃ final,
      BlockConnected env base baseBestBlock block pindex blockundo before after prev txs start final := by
  have represents : Represents base [] (before.blocktree, before.undo) start before :=
    ⟨valid, coins_eq, nofun, rfl⟩
  rcases run_bind_ok_iff.mp finished with ⟨_, _, preambleRun, run1⟩
  rcases connectPreamble_ok represents preambleRun with ⟨checked, prevBest, readyRepresents⟩
  split at run1
  · -- The genesis block has no undo data.
    rcases run_bind_ok_iff.mp run1 with ⟨_, _, _, returned⟩
    cases returned
  split at run1
  · cases run1
  next prev prev_eq =>
  rcases run_bind_ok_iff.mp run1 with ⟨_, _, transactionsRun, run2⟩
  rcases run_bind_ok_iff.mp run2 with ⟨_, _, writesRun, returned⟩
  cases returned
  have blockChecked := checked
  rcases checked with ⟨_, _, ok⟩
  rcases connectTransactions_ok ok readyRepresents transactionsRun with
    ⟨txs, final, txs_eq, connected, undo_eq, indexes_eq, unused, connectedRepresents, special,
      commitments⟩
  rcases connectWrites_ok connectedRepresents writesRun with ⟨vtxundo_eq, afterRepresents, evoDb⟩
  rw [indexes_eq] at afterRepresents
  refine ⟨prev, txs, final, prev_eq, ?_, blockChecked, txs_eq, connected,
    vtxundo_eq.trans undo_eq, unused, afterRepresents, evoDb, special, commitments⟩
  rw [<- prevBest, BlockPosition.hashPrevBlock, prev_eq]
  rfl

end StakeCubeCoin.Validation
