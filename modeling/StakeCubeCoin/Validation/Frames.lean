import StakeCubeCoin.Coins.Layer
import StakeCubeCoin.Validation.DisconnectBlock

namespace StakeCubeCoin.Validation

open Primitives Coins Evo Library Library.Action CCoinsViewCache

/-!
# What calls leave alone

Most calls of the block code read coins and write to the masternode database at most.
A property of the state that survives those two is kept by all of them, whatever they
return; one rule for each call says so.  A property that does not look at the view at
all is kept by the calls that spend and add coins as well.
-/

/-- The property survives reads of the view and writes to the masternode database.  Reading a coin
caches it, so that not even a read leaves the state as it was. -/
structure ReadStable (base : CCoinsView) (property : NodeState -> Prop) : Prop where
  fetchCoin : ∀ state outpoint, property state ->
    property { state with view := state.view.fetchCoin base outpoint }
  evoDb : ∀ state ops, property state -> property { state with evoDb := state.evoDb.apply ops }
  setBestBlock : ∀ state hash, property state ->
    property { state with view := state.view.setBestBlock hash }

section

variable {base : CCoinsView} {property : NodeState -> Prop}

/-! ## Calls that only read -/

theorem haveCoin_run (outpoint : COutPoint) (state : NodeState) :
    (haveCoin base outpoint).run state =
      (.ok (state.view.coins (liveCoins base) outpoint).isSome,
        { state with view := state.view.fetchCoin base outpoint }) := by
  rw [<- haveCoin_fst, <- haveCoin_snd]
  rfl

namespace ReadStable

variable (stable : ReadStable base property)

include stable

theorem keeps_haveCoin (outpoint : COutPoint) : Keeps property (haveCoin base outpoint) := by
  intro state holds
  rw [haveCoin_run]
  exact stable.fetchCoin state outpoint holds

theorem keeps_accessCoin (outpoint : COutPoint) : Keeps property (accessCoin base outpoint) := by
  intro state holds
  change property { state with view := (state.view.accessCoin base outpoint).2 }
  rw [accessCoin_snd]
  exact stable.fetchCoin state outpoint holds

theorem keeps_lookUp (reads : List COutPoint) : Keeps property (lookUp base reads) := by
  intro state holds
  induction reads generalizing state with
  | nil => exact holds
  | cons outpoint _ ih =>
    exact ih { state with view := state.view.fetchCoin base outpoint }
      (stable.fetchCoin state outpoint holds)

theorem keeps_inquire (inquiry : Inquiry) : Keeps property (inquire base inquiry) := by
  refine (stable.keeps_lookUp inquiry.reads).bind fun _ => ?_
  split
  · exact keeps_fail _
  · exact keeps_pure ()

theorem keeps_carryOut (report : Report) : Keeps property (carryOut base report) := by
  refine (keeps_change fun state holds => stable.evoDb state _ holds).bind fun _ => ?_
  exact stable.keeps_inquire report.toInquiry

theorem keeps_writeBestBlockUpgrade (hash : Uint256) :
    Keeps property (writeBestBlockUpgrade hash) :=
  keeps_change fun state holds => stable.evoDb state _ holds

theorem keeps_getBestBlock (baseBestBlock : Uint256) :
    Keeps property (getBestBlock baseBestBlock) := by
  refine keeps_exchange fun state holds => ?_
  unfold CCoinsViewCache.getBestBlock
  split
  · exact stable.setBestBlock state baseBestBlock holds
  · exact holds

variable (env : NodeEnv) (tx : CTransaction) (pindex : BlockPosition)

theorem keeps_checkSpecialTx (check_sigs : Bool) :
    Keeps property (checkSpecialTx env base tx pindex check_sigs) := by
  unfold checkSpecialTx
  split
  · exact keeps_pure ()
  split
  · exact keeps_fail _
  split
  · exact keeps_fail _
  · exact (keeps_read _).bind fun inquiry => stable.keeps_inquire inquiry

variable (vtx : List CTransaction) (pindex : BlockPosition)

theorem keeps_processQuorumBlock (fJustCheck fBLSChecks : Bool) :
    Keeps property (processQuorumBlock env base vtx pindex fJustCheck fBLSChecks) := by
  unfold processQuorumBlock
  split
  · exact stable.keeps_writeBestBlockUpgrade pindex.hash
  split
  · exact keeps_fail _
  · exact (keeps_read _).bind fun report => (stable.keeps_carryOut report).bind fun _ =>
      stable.keeps_writeBestBlockUpgrade pindex.hash

theorem keeps_processMasternodeBlock (fJustCheck : Bool) : Keeps property
      (processMasternodeBlock env base vtx pindex fJustCheck) := by
  unfold processMasternodeBlock
  split
  · exact keeps_pure ()
  · exact (keeps_read _).bind fun report => stable.keeps_carryOut report

theorem keeps_processSpecialTxsInBlock (fJustCheck fCheckCbTxMerleRoots : Bool) :
    Keeps property (processSpecialTxsInBlock env base vtx pindex fJustCheck fCheckCbTxMerleRoots) := by
  refine (keeps_forEach vtx fun tx _ => (stable.keeps_checkSpecialTx env tx pindex _).bind fun _ =>
    keeps_require _ _).bind fun _ => ?_
  refine (stable.keeps_processQuorumBlock env vtx pindex _ _).bind fun _ => ?_
  refine (stable.keeps_processMasternodeBlock env vtx pindex _).bind fun _ => ?_
  split
  · exact (keeps_read _).bind fun inquiry => stable.keeps_inquire inquiry
  · exact keeps_pure ()

theorem keeps_undoSpecialTxsInBlock : Keeps property (undoSpecialTxsInBlock env vtx pindex) := by
  unfold undoSpecialTxsInBlock
  split
  · unfold undoQuorumBlock
    split
    · exact keeps_pure false
    · refine (keeps_change fun state holds => stable.evoDb state _ holds).bind fun _ => ?_
      split
      · exact keeps_fail _
      · exact (stable.keeps_writeBestBlockUpgrade _).bind fun _ => keeps_pure true
  · exact keeps_pure false

/-! ## Checks of a transaction -/

theorem keeps_addInputValue (nSpendHeight : Nat) (nValueIn : CAmount) (txin : CTxIn) :
    Keeps property (addInputValue base nSpendHeight nValueIn txin) := by
  exact (stable.keeps_accessCoin _).bind fun _ => (keeps_require _ _).bind fun _ =>
    (keeps_require _ _).bind fun _ => (keeps_require _ _).bind fun _ => keeps_pure _

theorem keeps_haveInput (txin : CTxIn) (failure : Failure) : Keeps property
      (haveCoin base txin.prevout >>= fun have_coin => Action.require have_coin failure) :=
  (stable.keeps_haveCoin _).bind fun _ => keeps_require _ _

theorem keeps_checkTxInputs (nSpendHeight : Nat) :
    Keeps property (checkTxInputs base tx nSpendHeight) := by
  refine (keeps_forEach tx.vin fun txin _ => stable.keeps_haveInput txin _).bind fun _ => ?_
  refine (keeps_foldEach tx.vin (fun value txin _ => stable.keeps_addInputValue nSpendHeight value txin) 0).bind
    fun _ => ?_
  exact (keeps_require _ _).bind fun _ => (keeps_require _ _).bind fun _ => keeps_pure _

theorem keeps_indexInput (nHeight i : Nat) (txhash : Uint256) (batch : IndexBatch)
    (item : CTxIn × Nat) :
    Keeps property (indexInput env base nHeight i txhash batch item) :=
  (stable.keeps_accessCoin _).bind fun _ => keeps_pure _

theorem keeps_indexInputs (nHeight i : Nat) (tx : CTransaction) (batch : IndexBatch) :
    Keeps property (indexInputs env base nHeight i tx batch) := by
  unfold indexInputs
  split
  · exact keeps_foldEach tx.vin.zipIdx
      (fun batch item _ => stable.keeps_indexInput env nHeight i tx.hash batch item) batch
  · exact keeps_pure batch

theorem keeps_connectInputs (i : Nat) (tx : CTransaction) (progress : ConnectProgress) :
    Keeps property (connectInputs env base pindex i tx progress) := by
  refine (stable.keeps_checkTxInputs tx _).bind fun _ => (keeps_require _ _).bind fun _ => ?_
  refine (keeps_foldEach tx.vin (fun heights txin _ =>
    (stable.keeps_accessCoin _).bind fun _ => keeps_pure _) []).bind fun _ => ?_
  exact (keeps_require _ _).bind fun _ => (stable.keeps_indexInputs env _ i tx _).bind fun _ =>
    keeps_pure _

theorem keeps_fundTransaction (i : Nat) (tx : CTransaction) (progress : ConnectProgress) :
    Keeps property (fundTransaction env base pindex i tx progress) := by
  unfold fundTransaction
  split
  · exact keeps_pure progress
  · exact stable.keeps_connectInputs env pindex i tx progress

theorem keeps_countSigOps (tx : CTransaction) (progress : ConnectProgress) :
    Keeps property (countSigOps env base pindex tx progress) :=
  (keeps_read _).bind fun _ => (stable.keeps_lookUp _).bind fun _ =>
    (keeps_require _ _).bind fun _ =>
    keeps_pure _

theorem keeps_connectScripts (tx : CTransaction) (fJustCheck : Bool) (progress : ConnectProgress) :
    Keeps property (connectScripts env base pindex tx fJustCheck progress) := by
  unfold connectScripts
  split
  · exact (keeps_read _).bind fun checked => (stable.keeps_inquire checked.1).bind fun _ => keeps_pure _
  · exact keeps_pure progress

end ReadStable
end

/-! ## Properties that do not look at the view -/

/-- The property does not depend on the view, and survives writes to the masternode
database. -/
structure ViewFree (property : NodeState -> Prop) : Prop where
  view : ∀ state view, property state -> property { state with view }
  evoDb : ∀ state ops, property state -> property { state with evoDb := state.evoDb.apply ops }

namespace ViewFree

variable {property : NodeState -> Prop} (free : ViewFree property)
variable (env : NodeEnv) (base : CCoinsView)

include free

theorem readStable : ReadStable base property where
  fetchCoin := fun state _ holds => free.view state _ holds
  evoDb := free.evoDb
  setBestBlock := fun state _ holds => free.view state _ holds

theorem keeps_spendCoin (outpoint : COutPoint) : Keeps property (spendCoin base outpoint) :=
  keeps_exchange fun state holds => free.view state _ holds

theorem keeps_addCoin (outpoint : COutPoint) (coin : Coin) (possible_overwrite : Bool) :
    Keeps property (addCoin outpoint coin possible_overwrite) := by
  intro state holds
  cases added : state.view.addCoin outpoint coin possible_overwrite with
  | error _ =>
    rw [run_addCoin_of_error added]
    exact holds
  | ok _ =>
    rw [run_addCoin_of_ok added]
    exact free.view state _ holds

theorem keeps_spendInputs (vin : List CTxIn) : Keeps property (spendInputs base vin) := by
  induction vin with
  | nil => exact keeps_pure []
  | cons txin _ ih =>
    refine (free.keeps_spendCoin base txin.prevout).bind fun spent => ?_
    cases spent with
    | none => exact keeps_fail _
    | some _ => exact ih.bind fun _ => keeps_pure _

theorem keeps_addOutput (tx : CTransaction) (nHeight : Nat) (check_for_overwrite : Bool)
    (item : CTxOut × Nat) :
    Keeps property (addOutput base tx nHeight check_for_overwrite item) := by
  have overwrite : Keeps property (mayOverwrite base tx check_for_overwrite item.2) := by
    unfold mayOverwrite
    split
    · exact (free.readStable base).keeps_haveCoin _
    · exact keeps_pure _
  exact overwrite.bind fun _ => free.keeps_addCoin _ _ _

theorem keeps_updateCoins (tx : CTransaction) (nHeight : Nat) :
    Keeps property (updateCoins base tx nHeight) := by
  have spent : Keeps property (spendTransaction base tx) := by
    unfold spendTransaction
    split
    · exact keeps_pure []
    · exact free.keeps_spendInputs base tx.vin
  exact spent.bind fun _ => (keeps_forEach tx.vout.zipIdx fun item _ =>
    free.keeps_addOutput base tx nHeight false item).bind fun _ => keeps_pure _

theorem keeps_connectTransaction (pindex : BlockPosition) (fJustCheck : Bool)
    (progress : ConnectProgress) (item : CTransaction × Nat) :
    Keeps property (connectTransaction env base pindex fJustCheck progress item) := by
  have stable := free.readStable base
  exact (stable.keeps_fundTransaction env pindex item.2 item.1 progress).bind fun _ =>
    (stable.keeps_countSigOps env pindex item.1 _).bind fun _ =>
    (stable.keeps_connectScripts env pindex item.1 fJustCheck _).bind fun _ =>
    (free.keeps_updateCoins base item.1 pindex.nHeight).bind fun _ => keeps_pure _

theorem keeps_connectPreamble (baseBestBlock : Uint256) (block : CBlock) (pindex : BlockPosition)
    (fJustCheck : Bool) :
    Keeps property (connectPreamble env baseBestBlock block pindex fJustCheck) := by
  have checked : Keeps property (checkBlockAgain env block fJustCheck) := by
    unfold checkBlockAgain
    split
    · split <;> exact keeps_fail _
    · exact keeps_pure ()
  exact (keeps_require _ _).bind fun _ => checked.bind fun _ => (keeps_require _ _).bind fun _ =>
    (keeps_require _ _).bind fun _ =>
    ((free.readStable fun _ => none).keeps_getBestBlock baseBestBlock).bind fun _ =>
    (keeps_require _ _).bind fun _ => (keeps_read _).bind fun _ => keeps_require _ _

theorem keeps_connectTransactions (block : CBlock) (pindex : BlockPosition) (prev : PrevPosition)
    (fJustCheck : Bool) :
    Keeps property (connectTransactions env base block pindex prev fJustCheck) := by
  have stable := free.readStable base
  refine (keeps_forEach _ fun outpoint _ => (stable.keeps_haveCoin outpoint).bind fun _ =>
    keeps_require _ _).bind fun _ => ?_
  refine (keeps_require _ _).bind fun _ => ?_
  refine (stable.keeps_processSpecialTxsInBlock env block.vtx pindex fJustCheck _).bind fun _ => ?_
  refine (keeps_foldEach _ (fun progress item _ =>
    free.keeps_connectTransaction env base pindex fJustCheck progress item) _).bind fun _ => ?_
  refine Keeps.bind ?_ fun _ => keeps_pure _
  exact (keeps_require _ _).bind fun _ => (keeps_require _ _).bind fun _ =>
    (keeps_require _ _).bind fun _ => keeps_require _ _

end ViewFree

/-- Every check comes before the first write.  Unless it connects the block for good, `ConnectBlock`
leaves undo data and indexes as they are.  Writes to disk are taken to succeed. -/
theorem connectBlock_connects_or_keeps (env : NodeEnv) (base : CCoinsView) (baseBestBlock : Uint256)
    (block : CBlock) (pindex : BlockPosition) (fJustCheck : Bool) (before : NodeState) :
    let done := (connectBlock env base baseBestBlock block pindex fJustCheck).run before
    (fJustCheck = false /\ ∃ blockundo, done.1 = .ok (some blockundo)) \/
      done.2.blocktree = before.blocktree /\ done.2.undo = before.undo := by
  have free : ViewFree fun state => state.blocktree = before.blocktree /\
    state.undo = before.undo :=
    ⟨fun _ _ holds => holds, fun _ _ holds => holds⟩
  have kept := free.keeps_connectPreamble env baseBestBlock block pindex fJustCheck before ⟨rfl,
    rfl⟩
  rw [connectBlock, run_bind]
  generalize (connectPreamble env baseBestBlock block pindex fJustCheck).run before = begun at kept
  rcases begun with ⟨_ | _, middle⟩
  · exact .inr kept
  dsimp only
  split
  · right
    unfold connectGenesis
    split <;> exact kept
  split
  · exact .inr kept
  next prev _ =>
  have each := free.keeps_connectTransactions env base block pindex prev fJustCheck middle kept
  rw [run_bind]
  generalize (connectTransactions env base block pindex prev fJustCheck).run middle = ran at each
  rcases ran with ⟨_ | _, _⟩
  · exact .inr each
  cases fJustCheck with
  | true => exact .inr each
  | false => exact .inl ⟨rfl, _, rfl⟩

end StakeCubeCoin.Validation
