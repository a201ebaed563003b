import StakeCubeCoin.Validation.ConnectedBlock

namespace StakeCubeCoin.Validation

open Primitives Coins Library Library.Action
open List hiding after
open CCoinsViewCache Action CTxIn

/-!
# Disconnecting what was connected

`DisconnectBlock` walks the transactions of a connected block backwards.  Each round
takes a set of coins reached by `TxConnected` back to where it came from, so the whole
loop ends with the coins before the block.  What can go wrong is the step before the
loop: undoing the special transactions collects the commitments of the block, and that
fails for a block before activation if any of its transactions has the type of a
commitment, which connecting such a block does not look at.
-/

section

variable {env : NodeEnv} {base : CCoinsView} {known : List COutPoint}
variable {disk : CBlockTreeDB × Store Uint256 CBlockUndo}

variable {state : NodeState} {tx : CTransaction}

theorem takeOutputs_run {nHeight : Nat} (items : List (CTxOut × Nat)) {coins : UtxoSet}
    (fClean : Bool) :
    Represents base known disk coins state -> (items.map Prod.snd).Nodup ->
      (∀ item ∈ items, item.1.scriptPubKey.isUnspendable = false ->
        coins ⟨tx.hash, item.2⟩ = some (outputCoin tx nHeight item.1)) ->
      ∃ last, (foldEach (takeOutput base tx nHeight) items fClean).run state = (.ok fClean, last) /\
        Represents base known disk
          (eraseAll coins ((items.filterMap (outputOp tx nHeight)).map BatchOp.key)) last := by
  induction items generalizing coins state fClean with
  | nil =>
    intro represents _ _
    exact ⟨state, rfl, represents⟩
  | cons item _ ih =>
    intro represents distinct held
    rw [map_cons, nodup_cons] at distinct
    cases unspendable : item.1.scriptPubKey.isUnspendable with
    | true =>
      have skip : outputOp tx nHeight item = none := by
        rw [outputOp, if_pos unspendable]
      rw [filterMap_cons, skip]
      have round : (takeOutput base tx nHeight fClean item).run state = (.ok fClean, state) := by
        rw [takeOutput, if_pos unspendable]
        rfl
      rcases ih fClean represents distinct.2 (forall_mem_cons.mp held).2 with
        ⟨last, restRun, lastRepresents⟩
      exact ⟨last, (run_bind_of_ok round).trans restRun, lastRepresents⟩
    | false =>
      have made : outputOp tx nHeight item =
          some (.write ⟨tx.hash, item.2⟩ (outputCoin tx nHeight item.1)) := by
        rw [outputOp, if_neg (by rw [unspendable]; decide)]
      rw [filterMap_cons, made]
      have round : (takeOutput base tx nHeight fClean item).run state =
          (.ok fClean, { state with
            view := (state.view.spendCoin base ⟨tx.hash, item.2⟩).2 }) := by
        have spent := spendCoin_fst base state.view ⟨tx.hash, item.2⟩
        rw [represents.coins_eq, held item (.head _) unspendable] at spent
        rcases Option.bind_eq_some_iff.mp spent with ⟨_, moved_eq, live⟩
        rw [Coin.eq_of_live_eq_some live] at moved_eq
        rw [takeOutput, if_neg (by rw [unspendable]; decide)]
        rw [run_bind_of_ok (show (spendCoin base _).run state = (.ok (some _), _) by rw [<- moved_eq]; rfl)]
        simp [outputCoin, run_pure_eq]
      rcases ih fClean (represents.spendCoin ⟨tx.hash, item.2⟩) distinct.2 (by
            intro other member spendable
            rw [Function.update_of_ne, held other (.tail _ member) spendable]
            intro same
            have sameIndex : other.2 = item.2 := congrArg COutPoint.n same
            exact distinct.1 (sameIndex ▸ mem_map_of_mem member)) with
        ⟨last, restRun, lastRepresents⟩
      exact ⟨last, (run_bind_of_ok round).trans restRun, lastRepresents⟩

theorem applyTxInUndo_run {coins : UtxoSet}
    (represents : Represents base known disk coins state) {outpoint : COutPoint} {undo : Coin}
    (absent : coins outpoint = none) (chain : ChainCoin undo) :
    ∃ last, (applyTxInUndo base undo outpoint).run state = (.ok true, last) /\
      Represents base known disk (Function.update coins outpoint (some undo)) last := by
  have asked : (haveCoin base outpoint).run state =
      (.ok false, { state with view := state.view.fetchCoin base outpoint }) := by
    rw [haveCoin_run, represents.coins_eq, absent]
    rfl
  have completed : ∀ current : NodeState,
      (completeUndo base undo outpoint).run current = (.ok undo, current) := by
    intro current
    rw [completeUndo, if_neg (Nat.pos_iff_ne_zero.mp chain.height_pos)]
    rfl
  rcases addCoin_run (represents.fetchCoin outpoint) false chain.unspent (.inr absent) with
    ⟨last, added, lastRepresents, _⟩
  refine ⟨last, ?_, ?_⟩
  · unfold applyTxInUndo
    rw [run_bind_of_ok asked, run_bind_of_ok (completed _), run_bind_of_ok added]
    rfl
  · rw [addLive, if_neg (by rw [chain.spendable]; decide)] at lastRepresents
    exact lastRepresents

/-- The loop that restores inputs, from a set of coins where exactly they are missing. -/
theorem restoreLoop_run (env : NodeEnv) (nHeight i : Nat) (txhash : Uint256) {target : UtxoSet}
    (chain : ChainCoins target) (items : List ((CTxIn × Coin) × Nat))
    (progress : DisconnectProgress) :
    (items.map fun item => item.1.1.prevout).Nodup ->
      (∀ item ∈ items, target item.1.1.prevout = some item.1.2) ->
      Represents base known disk (eraseAll target (items.map fun item => item.1.1.prevout)) state ->
      ∃ last,
        (foldEach (restoreInput env base nHeight i txhash) items progress).run state =
          (.ok { fClean := progress.fClean
                 indexes := items.foldl (fun batch item => batch.append
                  (disconnectInputBatch env nHeight i txhash item.2 item.1.1.prevout item.1.2.out
                    item.1.2.nHeight)) progress.indexes }, last) /\
        Represents base known disk target last := by
  induction items generalizing state progress with
  | nil =>
    intro _ _ represents
    exact ⟨state, rfl, represents⟩
  | cons item rest ih =>
    intro distinct held represents
    rw [map_cons, nodup_cons] at distinct
    have here := held item (.head _)
    have absent : eraseAll target ((item :: rest).map fun item => item.1.1.prevout)
        item.1.1.prevout = none := by
      rw [eraseAll_apply, if_pos (by simp)]
    rcases applyTxInUndo_run represents absent (chain _ _ here) with
      ⟨applied, applyRun, appliedRepresents⟩
    rw [map_cons, update_eraseAll_cons distinct.1 here] at appliedRepresents
    have back : eraseAll target (rest.map fun item => item.1.1.prevout) item.1.1.prevout =
        some item.1.2 := by
      rw [eraseAll_apply, if_neg distinct.1, here]
    have restored : ∃ middle,
        (restoredCoin env base item.1.2 item.1.1.prevout).run applied = (.ok item.1.2, middle) /\
        Represents base known disk (eraseAll target (rest.map fun item => item.1.1.prevout)) middle := by
      unfold restoredCoin
      split
      · have keep := represents_stable.keeps_accessCoin item.1.1.prevout applied appliedRepresents
        cases run : (accessCoin base item.1.1.prevout).run applied with
        | mk result middle =>
          cases result with
          | error error => cases run
          | ok _ =>
            rw [accessCoin_value appliedRepresents back run] at *
            rw [run] at keep
            exact ⟨middle, rfl, keep⟩
      · exact ⟨applied, rfl, appliedRepresents⟩
    rcases restored with ⟨middle, restoredRun, middleRepresents⟩
    have round : (restoreInput env base nHeight i txhash progress item).run state =
        (.ok { fClean := progress.fClean
               indexes := progress.indexes.append
                (disconnectInputBatch env nHeight i txhash item.2 item.1.1.prevout item.1.2.out
                  item.1.2.nHeight) }, middle) := by
      unfold restoreInput
      rw [run_bind_of_ok applyRun, run_bind_of_ok restoredRun, Bool.and_true]
      rfl
    rcases ih _ distinct.2 (forall_mem_cons.mp held).2
        middleRepresents with ⟨last, restRun, lastRepresents⟩
    exact ⟨last, (run_bind_of_ok round).trans restRun, lastRepresents⟩

def restoreEntries (env : NodeEnv) (nHeight i : Nat) (tx : CTransaction) (coins : UtxoSet)
    (batch : IndexBatch) : IndexBatch :=
  tx.vin.zipIdx.reverse.foldl (fun batch item => batch.append
    (disconnectInputBatch env nHeight i tx.hash item.2 item.1.prevout
      (coinAt coins item.1.prevout).out (coinAt coins item.1.prevout).nHeight)) batch

variable {pindex : BlockPosition} {blockUndo : CBlockUndo} {txundo : CTxUndo}
  {after before : UtxoSet}

theorem restoreInputs_run (env : NodeEnv) {i : Nat}
    (connected : TxConnected pindex.nHeight tx txundo before after) (chain : ChainCoins before)
    (ordinary : tx.isCoinBase = false) (undo : blockUndo.vtxundo[i - 1]? = some txundo)
    (progress : DisconnectProgress)
    (represents : Represents base known disk (eraseAll before (inputs tx)) state) :
    ∃ last, (restoreInputs env base pindex blockUndo i tx progress).run state = (.ok { progress with
          indexes := restoreEntries env pindex.nHeight i tx before progress.indexes }, last) /\
      Represents base known disk before last := by
  have inputs_eq : inputs tx = tx.vin.map prevout := by
    rw [inputs, if_neg (by rw [ordinary]; decide)]
  have held := connected.held
  have distinct := connected.distinct
  have spent := connected.spent
  rw [inputs_eq] at held distinct spent represents
  -- The undo data pairs each input with the coin it spent.
  have paired : (tx.vin.zip txundo).zipIdx =
      tx.vin.zipIdx.map fun item => ((item.1, coinAt before item.1.prevout), item.2) := by
    have zipped : tx.vin.zip txundo = tx.vin.map fun txin => (txin, coinAt before txin.prevout) := by
      have both : (tx.vin.map id).zip (tx.vin.map fun txin => coinAt before txin.prevout) =
          tx.vin.map fun txin => (txin, coinAt before txin.prevout) := zip_map'
      rw [map_id] at both
      rw [spent, map_map]
      exact both
    rw [zipped, zipIdx_map]
    rfl
  have prevouts : (tx.vin.zip txundo).zipIdx.reverse.map (fun item => item.1.1.prevout) =
      (tx.vin.map prevout).reverse := by
    rw [paired, map_reverse, map_map]
    conv_rhs => rw [<- zipIdx_map_fst 0 tx.vin, map_map]
    rfl
  have start : Represents base known disk (eraseAll before
      ((tx.vin.zip txundo).zipIdx.reverse.map fun item => item.1.1.prevout)) state := by
    have sameSet : eraseAll before (tx.vin.map prevout).reverse =
        eraseAll before (tx.vin.map prevout) := by
      funext outpoint
      rw [eraseAll_apply, eraseAll_apply]
      simp
    rw [prevouts, sameSet]
    exact represents
  rcases restoreLoop_run env pindex.nHeight i tx.hash chain
    (tx.vin.zip txundo).zipIdx.reverse progress
      (by rw [prevouts]; exact nodup_reverse.mpr distinct)
      (by
        intro item member
        rw [paired, mem_reverse] at member
        rcases mem_map.mp member with ⟨_, listed, rfl⟩
        exact eq_some_coinAt (held _ (mem_map_of_mem (fst_mem_of_mem_zipIdx listed))))
      start with ⟨last, loopRun, lastRepresents⟩
  refine ⟨last, ?_, lastRepresents⟩
  unfold restoreInputs
  rw [undo]
  have lengths : decide (txundo.length = tx.vin.length) = true := by
    rw [spent]
    simp
  refine (run_bind_of_ok (run_require_of_true lengths _ _)).trans ?_
  rw [loopRun, paired, <- map_reverse, foldl_map]
  rfl

theorem takeTransaction_run {nHeight : Nat} (connected : TxConnected nHeight tx txundo before after)
    (represents : Represents base known disk after state) (fClean : Bool) : ∃ last,
      (foldEach (takeOutput base tx nHeight) tx.vout.zipIdx fClean).run state =
      (.ok fClean, last) /\ Represents base known disk (eraseAll before (inputs tx)) last := by
  have held : ∀ item ∈ tx.vout.zipIdx, item.1.scriptPubKey.isUnspendable = false ->
      after ⟨tx.hash, item.2⟩ = some (outputCoin tx nHeight item.1) := by
    rintro ⟨out, n⟩ listed spendable
    rw [connected.after_eq]
    refine writeBatch_of_agree _ ⟨.write ⟨tx.hash, n⟩ (outputCoin tx nHeight out),
      mem_filterMap.mpr ⟨(out, n), listed, by simpa [outputOp] using spendable⟩, rfl⟩ ?_
    -- The index of an output decides which output it is.
    intro op member same
    rcases mem_outputOps member with ⟨other, m, otherListed, _, rfl⟩
    have sameIndex : m = n := congrArg COutPoint.n same
    subst sameIndex
    rw [mem_zipIdx_iff_getElem?] at listed otherListed
    rw [listed] at otherListed
    have sameOut : out = other := Option.some.inj otherListed
    subst sameOut
    rfl
  rcases takeOutputs_run tx.vout.zipIdx fClean represents
    (by rw [zipIdx_map_snd]; exact nodup_range') held with
    ⟨last, run, lastRepresents⟩
  refine ⟨last, run, ?_⟩
  convert lastRepresents using 1
  funext outpoint
  rw [eraseAll_apply after]
  split
  · next made =>
    rcases mem_map.mp made with ⟨op, member, same⟩
    rw [<- same]
    exact connected.absent op member
  · next other =>
    rw [connected.after_eq]
    symm
    apply writeBatch_of_untouched
    intro op member same
    exact other (mem_map.mpr ⟨op, member, same⟩)

theorem disconnectTransaction_run (env : NodeEnv) {i : Nat}
    (connected : TxConnected pindex.nHeight tx txundo before after) (chain : ChainCoins before)
    (ordinary : tx.isCoinBase = false) (positive : 0 < i)
    (undo : blockUndo.vtxundo[i - 1]? = some txundo) (progress : DisconnectProgress)
    (represents : Represents base known disk after state) :
    ∃ last, (disconnectTransaction env base pindex blockUndo progress (tx, i)).run state =
        (.ok { progress with
          indexes := restoreEntries env pindex.nHeight i tx before
            (disconnectOutputBatches env pindex.nHeight i tx progress.indexes) }, last) /\
      Represents base known disk before last := by
  rcases takeTransaction_run connected represents progress.fClean with
    ⟨_, takeRun, takenRepresents⟩
  rcases restoreInputs_run env connected chain ordinary undo
      { fClean := progress.fClean
        indexes := disconnectOutputBatches env pindex.nHeight i tx progress.indexes }
      takenRepresents with ⟨last, restoreRun, lastRepresents⟩
  refine ⟨last, ?_, lastRepresents⟩
  unfold disconnectTransaction
  rw [run_bind_of_ok takeRun, if_pos positive]
  exact restoreRun

/-- The index entries for the transactions after the coinbase, the first of which has index `i`.
The last transaction comes first. -/
def disconnectIndexes (env : NodeEnv) (nHeight : Nat) :
    Nat -> List CTransaction -> UtxoSet -> IndexBatch -> IndexBatch
  | _, [], _, batch => batch
  | i, tx :: rest, coins, batch =>
    restoreEntries env nHeight i tx coins
      (disconnectOutputBatches env nHeight i tx
        (disconnectIndexes env nHeight (i + 1) rest (connectCoins tx nHeight coins) batch))

variable {txs : List (CTransaction × CTxUndo)}

theorem disconnectOthers_run (env : NodeEnv) (height_pos : 0 < pindex.nHeight)
    (connected : TxsConnected pindex.nHeight txs before after) {k : Nat}
    (progress : DisconnectProgress) :
    ChainCoins before -> (∀ item ∈ txs, item.1.isCoinBase = false /\ TransactionOk item.1) ->
      blockUndo.vtxundo.drop k = txs.map Prod.snd ->
      Represents base known disk after state ->
      ∃ last, (foldEach (disconnectTransaction env base pindex blockUndo)
          ((txs.map Prod.fst).zipIdx (k + 1)).reverse progress).run state =
          (.ok { progress with
            indexes := disconnectIndexes env pindex.nHeight (k + 1) (txs.map Prod.fst) before
              progress.indexes }, last) /\
        Represents base known disk before last := by
  induction connected generalizing k state progress with
  | nil _ =>
    intro _ _ _ represents
    exact ⟨state, rfl, represents⟩
  | @cons tx txundo rest before middle after first restConnected ih =>
    intro chain ok undos represents
    have firstOk := ok (tx, txundo) (.head _)
    have here : blockUndo.vtxundo[k]? = some txundo := by
      rw [<- List.head?_drop, undos]
      rfl
    have later : blockUndo.vtxundo.drop (k + 1) = rest.map Prod.snd := by
      rw [<- tail_drop, undos]
      rfl
    rcases ih progress (first.chainCoins chain height_pos firstOk.2.nonneg)
        (forall_mem_cons.mp ok).2 later represents with
      ⟨_, restRun, betweenRepresents⟩
    rcases disconnectTransaction_run env (i := k + 1) first chain firstOk.1 (Nat.succ_pos k) here
        { progress with
          indexes := disconnectIndexes env pindex.nHeight (k + 1 + 1) (rest.map Prod.fst) middle
            progress.indexes }
        betweenRepresents with ⟨last, firstRun, lastRepresents⟩
    refine ⟨last, ?_, lastRepresents⟩
    rw [map_cons, zipIdx_cons, reverse_cons, foldEach_append, run_bind_of_ok restRun]
    refine (run_bind_of_ok firstRun).trans ?_
    rw [disconnectIndexes, <- first.after_eq]
    rfl

def disconnectBlockIndexes (env : NodeEnv) (nHeight : Nat) (vtx : List CTransaction)
    (coins : UtxoSet) : IndexBatch :=
  match vtx with
  | [] => {}
  | coinbase :: others =>
    disconnectOutputBatches env nHeight 0 coinbase
      (disconnectIndexes env nHeight 1 others (connectCoins coinbase nHeight coins) {})

variable {block : CBlock}

theorem disconnectAll_run (env : NodeEnv) {coinbase : CTransaction} {others : List CTransaction}
    (ok : BlockOk block coinbase others) (height_pos : 0 < pindex.nHeight)
    (chain : ChainCoins before) (txs_eq : txs.map Prod.fst = block.vtx)
    (connected : TxsConnected pindex.nHeight txs before after)
    (undo_eq : blockUndo.vtxundo = txs.tail.map Prod.snd)
    (represents : Represents base known disk after state) :
    ∃ last, (foldEach (disconnectTransaction env base pindex blockUndo)
        block.vtx.zipIdx.reverse {}).run state =
        (.ok { indexes := disconnectBlockIndexes env pindex.nHeight block.vtx before }, last) /\
      Represents base known disk before last := by
  have transactions := ok.transactions
  rw [ok.shape] at txs_eq transactions
  cases connected with
  | nil => cases txs_eq
  | @cons tx txundo rest _ middle _ first restConnected =>
    injection txs_eq with coinbase_eq others_eq
    subst coinbase_eq
    have restOk : ∀ item ∈ rest, item.1.isCoinBase = false /\ TransactionOk item.1 := by
      intro item member
      have listed : item.1 ∈ others := others_eq ▸ mem_map_of_mem member
      exact ⟨ok.rest item.1 listed, transactions item.1 (.tail _ listed)⟩
    have firstOk := transactions tx (.head _)
    rcases disconnectOthers_run env height_pos restConnected (k := 0) {}
        (first.chainCoins chain height_pos firstOk.nonneg) restOk undo_eq represents with
      ⟨_, restRun, betweenRepresents⟩
    rw [others_eq] at restRun
    rcases takeTransaction_run first betweenRepresents true with ⟨last, takeRun, lastRepresents⟩
    rw [inputs, if_pos ok.first] at lastRepresents
    refine ⟨last, ?_, lastRepresents⟩
    rw [ok.shape, zipIdx_cons, reverse_cons, foldEach_append, run_bind_of_ok restRun,
      disconnectBlockIndexes, <- first.after_eq]
    -- The coinbase comes last, and none of its inputs is given back.
    refine (run_bind_of_ok ?_).trans rfl
    exact (run_bind_of_ok takeRun).trans rfl

variable {prev : PrevPosition} {blockundo : CBlockUndo} {baseBestBlock : Uint256}
  {final start : UtxoSet}

/-- Disconnecting a connected block: it is refused if its commitments cannot be collected, and
otherwise all of it is taken back. -/
theorem disconnectBlock_run {before after : NodeState}
    (connected : BlockConnected env base baseBestBlock block pindex blockundo before after prev txs
      start final) (chain : ChainCoins start) (stored : after.undo pindex.hash = some blockundo) :
    match getCommitmentsFromBlock env block.vtx pindex with
    | .error _ => (disconnectBlock env base block pindex).run after = (.ok .failed, after)
    | .ok _ => ∃ last, (disconnectBlock env base block pindex).run after = (.ok .ok, last) /\
      last.view.coins (liveCoins base) = start /\ last.view.hashBlock = prev.hash /\
      last.blocktree = undoIndexes env (disconnectBlockIndexes env pindex.nHeight block.vtx start)
        (writeIndexes env pindex (connectIndexes env pindex.nHeight 0 block.vtx start {})
          before.blocktree) := by
  rcases connected.checked with ⟨_, _, ok⟩
  have evoOk : (!(decide (env.DIP0003Height <= pindex.nHeight) &&
      !after.evoDb.verifyBestBlock pindex.hash)) = true := by
    rw [connected.evoDb]
    simp
  have sizes : decide (blockundo.vtxundo.length + 1 = block.vtx.length) = true := by
    have lengths := congrArg List.length connected.txs_eq
    rw [length_map, ok.shape, length_cons] at lengths
    rw [connected.undo_eq, length_map, length_tail, ok.shape, length_cons, decide_eq_true_eq]
    omega
  have body : (disconnectBody env base block pindex).run after =
      (disconnectWith env base block pindex blockundo).run after := by
    refine (run_bind_of_ok (run_require_of_true evoOk _ after)).trans ?_
    refine (run_bind_of_ok (run_read _ after)).trans ?_
    rw [stored]
  unfold disconnectWith at body
  rw [run_bind_of_ok (run_require_of_true sizes _ after)] at body
  cases collected : getCommitmentsFromBlock env block.vtx pindex with
  | error _ =>
    have refused : (undoSpecialTxsInBlock env block.vtx pindex).run after = (.ok false, after) := by
      unfold undoSpecialTxsInBlock undoQuorumBlock
      rw [collected]
      split <;> rfl
    rw [run_bind_of_ok refused] at body
    exact run_recover_of_error (run_bind_of_error body) rfl
  | ok _ =>
    have undoes : ∃ undone, (undoSpecialTxsInBlock env block.vtx pindex).run after = (.ok true, undone) := by
      unfold undoSpecialTxsInBlock undoQuorumBlock
      rw [if_pos connected.special, collected, connected.prev_eq]
      exact ⟨_, rfl⟩
    rcases undoes with ⟨undone, undoRun⟩
    have height_pos : 0 < pindex.nHeight := by
      rw [pindex.height_eq prev connected.prev_eq]
      exact Nat.succ_pos _
    rcases disconnectAll_run env ok height_pos chain connected.txs_eq connected.connected connected.undo_eq
        ((represents_stable.keeps_undoSpecialTxsInBlock env block.vtx pindex).of_run undoRun
          connected.represents) with ⟨looped, loopRun, represents⟩
    rw [run_bind_of_ok undoRun, run_bind_of_ok (run_require_of_true rfl _ undone),
      run_bind_of_ok loopRun, connected.prev_eq] at body
    refine ⟨_, run_recover_of_ok (run_bind_of_ok body), represents.coins_eq, rfl, ?_⟩
    exact congrArg (undoIndexes env _) (congrArg Prod.fst represents.disk_eq)

/-- The commitments of a connected block can be collected exactly if special transactions are active
at its height or none of its transactions has the type of a commitment. -/
theorem BlockConnected.commitments_iff {before after : NodeState}
    (connected : BlockConnected env base baseBestBlock block pindex blockundo before after prev txs
      start final) : (∃ qcs, getCommitmentsFromBlock env block.vtx pindex = .ok qcs) <->
      (env.DIP0003Height <= pindex.nHeight \/ ∀ tx ∈ block.vtx, tx.nType ≠ .quorumCommitment) := by
  by_cases active : env.DIP0003Height <= pindex.nHeight
  · exact ⟨fun _ => .inl active, fun _ => connected.commitments active⟩
  · rw [getCommitmentsFromBlock_of_premature (Nat.lt_of_not_le active)]
    exact ⟨.inr, fun condition => condition.resolve_left active⟩

/-- When disconnecting returns `DISCONNECT_OK` with a property that is settled by what is taken
back: the commitments are collected, and the property is settled in its favour. -/
theorem disconnectBlock_ok_iff {before after : NodeState}
    (connected : BlockConnected env base baseBestBlock block pindex blockundo before after prev txs
      start final) (chain : ChainCoins start) (stored : after.undo pindex.hash = some blockundo)
    {property : NodeState -> Prop} {settled : Prop}
    (settles : ∀ last : NodeState, last.view.coins (liveCoins base) = start ->
      last.view.hashBlock = prev.hash ->
      last.blocktree = undoIndexes env (disconnectBlockIndexes env pindex.nHeight block.vtx start)
        (writeIndexes env pindex (connectIndexes env pindex.nHeight 0 block.vtx start {})
          before.blocktree) -> (property last <-> settled)) :
    (∃ last, (disconnectBlock env base block pindex).run after = (.ok .ok, last) /\ property last) <->
      (env.DIP0003Height <= pindex.nHeight \/ ∀ tx ∈ block.vtx, tx.nType ≠ .quorumCommitment) /\
        settled := by
  have undone := disconnectBlock_run connected chain stored
  rw [<- connected.commitments_iff]
  cases collected : getCommitmentsFromBlock env block.vtx pindex with
  | error _ =>
    simp only [collected] at undone
    rw [undone]
    constructor
    · rintro ⟨_, run, _⟩
      cases run
    · rintro ⟨⟨_, found⟩, _⟩
      cases found
  | ok qcs =>
    rw [collected] at undone
    rcases undone with ⟨last, run, coins_eq, hashBlock_eq, blocktree_eq⟩
    have settles := settles last coins_eq hashBlock_eq blocktree_eq
    constructor
    · rintro ⟨other, otherRun, holds⟩
      rw [run] at otherRun
      cases otherRun
      exact ⟨⟨qcs, rfl⟩, settles.mp holds⟩
    · rintro ⟨_, holds⟩
      exact ⟨last, run, settles.mpr holds⟩

/-! ## Views of a chain -/

/-- The flags of a view are correct, and its coins are coins of a chain.  This is what the view of
the tip is like whenever a block is connected or disconnected. -/
structure ChainView (base : CCoinsView) (view : CCoinsViewCache) : Prop where
  valid : view.Valid (liveCoins base)
  chain : ChainCoins (view.coins (liveCoins base))

/-- Disconnecting a block that was connected returns `DISCONNECT_OK` and restores every coin and the
best block, exactly if special transactions are active at its height or the block has no
commitments. -/
theorem disconnectBlock_undoes_connectBlock_iff {baseBestBlock : Uint256} {block : CBlock}
    {pindex : BlockPosition} {blockundo : CBlockUndo} {before after : NodeState}
    (view : ChainView base before.view)
    (connected : (connectBlock env base baseBestBlock block pindex false).run before =
      (.ok (some blockundo), after)) (stored : after.undo pindex.hash = some blockundo) :
    (∃ last, (disconnectBlock env base block pindex).run after = (.ok .ok, last) /\
      (∀ outpoint, (last.view.getCoin base outpoint).1 = (before.view.getCoin base outpoint).1) /\
      (last.view.getBestBlock baseBestBlock).1 = pindex.hashPrevBlock) <->
    (env.DIP0003Height <= pindex.nHeight \/ ∀ tx ∈ block.vtx, tx.nType ≠ .quorumCommitment) := by
  rcases connectBlock_ok view.valid rfl connected with ⟨prev, _, _, done⟩
  refine (disconnectBlock_ok_iff done view.chain stored ?_).trans (iff_of_eq (and_true _))
  intro last coins_eq hashBlock_eq _
  refine iff_true_intro ⟨?_, ?_⟩
  · intro outpoint
    rw [getCoin_fst, getCoin_fst, coins_eq]
  -- A null hash would be filled in from the base, as it was before the block.
  have best := done.best
  rw [BlockPosition.hashPrevBlock, done.prev_eq]
  unfold CCoinsViewCache.getBestBlock at best ⊢
  rw [hashBlock_eq]
  split
  · next null =>
    split at best
    · exact best
    · next notNull =>
      change before.view.hashBlock = prev.hash at best
      rw [best] at notNull
      exact absurd null notNull
  · rfl

end

/-! ## A block with a chain of spends, and a block that cannot be undone -/

namespace UndoSample

def funding : COutPoint :=
  ⟨7, 0⟩

def base : CCoinsView :=
  fun outpoint =>
    if outpoint = funding then
      some { out := ⟨100, [0x51]⟩, fCoinBase := false, nHeight := 1 }
    else
      none

def coinbase : CTransaction :=
  { vin := [{ prevout := ⟨0, COutPoint.NULL_INDEX⟩, scriptSig := [1, 2] }]
    vout := [⟨50, [0x51]⟩]
    hash := 20 }

/-- Spends the coin, and makes one output that can be spent and one that cannot. -/
def first : CTransaction :=
  { vin := [{ prevout := funding }]
    vout := [⟨90, [0x51]⟩, ⟨0, [Opcode.OP_RETURN]⟩]
    hash := 21 }

/-- Spends the output of the transaction before it. -/
def second : CTransaction :=
  { vin := [{ prevout := ⟨21, 0⟩ }]
    vout := [⟨80, [0x51]⟩]
    hash := 22 }

/-- Has the type of a commitment, but not the version of a special transaction. -/
def mistyped : CTransaction :=
  { vin := [], vout := [], nVersion := 2, nType := .quorumCommitment, hash := 23 }

def block (vtx : List CTransaction) : CBlock :=
  { header := { nVersion := 1, hashPrevBlock := 5, hashMerkleRoot := 0, nTime := 0, nBits := 0,
                nNonce := 6 }
    vtx := vtx }

def pindex : BlockPosition :=
  { hash := 6, nHeight := 2, nTime := 0, pprev := some { hash := 5, nHeight := 1 }
    height_eq := by
      intro prev same
      cases same
      rfl }

def before : NodeState :=
  { view := CCoinsViewCache.new.setBestBlock 5
    evoDb := { db := fun _ => none }
    blocktree :=
      { addressIndex := fun _ => none, addressUnspentIndex := fun _ => none,
        spentIndex := fun _ => none, timestampIndex := fun _ => none }
    undo := fun _ => none }

/-- The state after a block, before activation at height 10. -/
def after (vtx : List CTransaction) : NodeState :=
  ((connectBlock (NodeEnv.permissive 10 false false) base 0 (block vtx) pindex false).run before).2

/-- The coins that the chain of spends consumes. -/
def undo : CBlockUndo :=
  { vtxundo :=
      [[{ out := ⟨100, [0x51]⟩, fCoinBase := false, nHeight := 1 }],
        [{ out := ⟨90, [0x51]⟩, fCoinBase := false, nHeight := 2 }]] }

theorem view_ok : ChainView base before.view where
  valid := valid_new _
  chain := by
    intro outpoint coin found
    change new.coins (liveCoins base) outpoint = some coin at found
    rw [coins_new, liveCoins, base] at found
    split at found
    · cases found
      exact ⟨rfl, by decide, rfl⟩
    · cases found

end UndoSample

open UndoSample in
theorem disconnectBlock_undoes_connectBlock_iff_sample : ∃ last,
      (disconnectBlock (NodeEnv.permissive 10 false false) base (block [coinbase, first, second])
        pindex).run (after [coinbase, first, second]) = (.ok .ok, last) /\
      (∀ outpoint, (last.view.getCoin base outpoint).1 = (before.view.getCoin base outpoint).1) /\
      (last.view.getBestBlock 0).1 = pindex.hashPrevBlock := by
  have value : ((connectBlock (NodeEnv.permissive 10 false false) base 0
      (block [coinbase, first, second]) pindex false).run before).1 = .ok (some undo) := by
    decide +kernel
  have connected : (connectBlock (NodeEnv.permissive 10 false false) base 0
      (block [coinbase, first, second]) pindex false).run before =
        (.ok (some undo), after [coinbase, first, second]) := by
    rw [<- value, after]
  have stored : (after [coinbase, first, second]).undo pindex.hash = some undo := by
    decide +kernel
  exact (disconnectBlock_undoes_connectBlock_iff view_ok connected stored).mpr (.inr (by decide))

open UndoSample in
theorem mistyped_transaction_is_not_undone :
    ChainView base before.view /\ ((connectBlock (NodeEnv.permissive 10 false false) base 0 (block [coinbase, mistyped]) pindex
        false).run before).1 = .ok (some { vtxundo := [[]] }) /\
      (after [coinbase, mistyped]).undo pindex.hash = some { vtxundo := [[]] } /\
      ((disconnectBlock (NodeEnv.permissive 10 false false) base (block [coinbase, mistyped])
        pindex).run (after [coinbase, mistyped])).1 = .ok .failed := by
  refine ⟨view_ok, ?_⟩
  decide +kernel

end StakeCubeCoin.Validation
