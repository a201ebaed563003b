import StakeCubeCoin.Validation.Node

namespace StakeCubeCoin.Validation

open Primitives Coins Evo

/-!
# Special transactions of a block

`evo/specialtxman.cpp`, and the parts of the quorum block processor and of the
masternode manager which it calls for every block.  Checks that depend on the type
of a transaction, the rules for commitments and the update of the masternode list are
parameters; which of them run, and in what order, is modelled.
-/

section

variable (env : NodeEnv) (base : CCoinsView) (tx : CTransaction)

/-- Whether the special transaction code looks at the transaction at all. -/
def isSpecialTx : Bool :=
  decide (tx.nVersion = 3) && decide (tx.nType ≠ .normal)

def isKnownType : TxType -> Bool
  | .other _ => false
  | _ => true

def checkSpecialTx (pindex : BlockPosition) (check_sigs : Bool) : NodeAction Unit :=
  if !isSpecialTx tx then
    pure ()
  else if (pindex.pprev.map fun prev => decide (prev.nHeight + 1 < env.DIP0003Height)).getD false then
    .fail (.reject (.dos 10 "bad-tx-type"))
  else if !isKnownType tx.nType then
    .fail (.reject (.dos 10 "bad-tx-type-check"))
  else do
    let inquiry <- .read fun state =>
      env.checkSpecialTxByType tx pindex state.evoDb.read (state.getCoin base) check_sigs
    inquire base inquiry

def processSpecialTx : NodeAction Unit :=
  .require (!isSpecialTx tx || isKnownType tx.nType) (.reject (.dos 100 "bad-tx-type-proc"))

def undoSpecialTx : Bool :=
  !isSpecialTx tx || isKnownType tx.nType

/-- The loop of `GetCommitmentsFromBlock`.  The map of the source is keyed by the
type of the quorum, and holds at most one commitment for each. -/
def collectCommitments : List CTransaction -> List CFinalCommitment ->
    Except Rejection (List CFinalCommitment)
  | [], ret => .ok ret
  | tx :: rest, ret =>
    if tx.nType = .quorumCommitment then
      match env.getTxPayload tx with
      | none => .error (.dos 100 "bad-qc-payload")
      | some qc =>
        if ret.any fun other => other.llmqType == qc.llmqType then
          .error (.dos 100 "bad-qc-dup")
        else
          collectCommitments rest (ret ++ [qc])
    else
      collectCommitments rest ret

variable (vtx : List CTransaction)

def getCommitmentsFromBlock (pindex : BlockPosition) : Except Rejection (List CFinalCommitment) :=
  match collectCommitments env vtx [] with
  | .error rejection => .error rejection
  | .ok ret =>
    if pindex.nHeight < env.DIP0003Height && !ret.isEmpty then
      .error (.dos 100 "bad-qc-premature")
    else
      .ok ret

/-- The write of the key that marks the last block seen by the quorum code. -/
def writeBestBlockUpgrade (hash : Uint256) : NodeAction Unit :=
  .change fun state =>
    { state with evoDb := state.evoDb.apply [.write .bestBlockUpgrade (.hash hash)] }

def processQuorumBlock (pindex : BlockPosition) (fJustCheck fBLSChecks : Bool) : NodeAction Unit :=
  if pindex.nHeight < env.DIP0003Height then
    writeBestBlockUpgrade pindex.hash
  else
    match getCommitmentsFromBlock env vtx pindex with
    | .error rejection => .fail (.reject rejection)
    | .ok qcs => do
      let report <- .read fun state =>
        env.processCommitments qcs pindex state.evoDb.read fJustCheck fBLSChecks
      carryOut base report
      writeBestBlockUpgrade pindex.hash

/-- The records of the commitments of a block, which are erased when it is undone. -/
def undoCommitmentOps (qcs : List CFinalCommitment) (nHeight : Nat) : List EvoOp :=
  (qcs.filter fun qc => !qc.isNull).flatMap fun qc =>
    [.erase (.minedCommitment qc.llmqType qc.quorumHash),
      .erase (.minedCommitmentByInversedHeight qc.llmqType nHeight)]

def undoQuorumBlock (pindex : BlockPosition) : NodeAction Bool :=
  match getCommitmentsFromBlock env vtx pindex with
  | .error _ => pure false
  | .ok qcs => do
    .change fun state =>
      { state with evoDb := state.evoDb.apply (undoCommitmentOps qcs pindex.nHeight) }
    match pindex.pprev with
    | none => .fail (.assertion "pindex->pprev")
    | some prev => do
      writeBestBlockUpgrade prev.hash
      pure true

/-- `CDeterministicMNManager::ProcessBlock`.  It does nothing before activation, and afterwards what
the code for the masternode list reports. -/
def processMasternodeBlock (pindex : BlockPosition) (fJustCheck : Bool) : NodeAction Unit :=
  if pindex.nHeight < env.DIP0003Height then
    pure ()
  else do
    let report <- .read fun state =>
      env.processMasternodes vtx pindex state.evoDb.read (state.getCoin base) fJustCheck
    carryOut base report

def processSpecialTxsInBlock (pindex : BlockPosition)
    (fJustCheck fCheckCbTxMerleRoots : Bool) : NodeAction Unit := do
  .forEach
    (fun tx => do
      checkSpecialTx env base tx pindex fCheckCbTxMerleRoots
      processSpecialTx tx)
    vtx
  processQuorumBlock env base vtx pindex fJustCheck fCheckCbTxMerleRoots
  processMasternodeBlock env base vtx pindex fJustCheck
  if fCheckCbTxMerleRoots then do
    let inquiry <- .read fun state =>
      env.checkCbTxMerkleRoots vtx pindex state.evoDb.read (state.getCoin base)
    inquire base inquiry
  else
    pure ()

/-- `UndoSpecialTxsInBlock`.  `CDeterministicMNManager::UndoBlock` before the quorum code only drops
cached lists. -/
def undoSpecialTxsInBlock (pindex : BlockPosition) : NodeAction Bool :=
  if vtx.all undoSpecialTx then
    undoQuorumBlock env vtx pindex
  else
    pure false

end

/-! ## What undoing a block needs -/

variable {vtx : List CTransaction} {env : NodeEnv}

theorem collectCommitments_of_none
    (absent : ∀ tx ∈ vtx, tx.nType ≠ .quorumCommitment) (ret : List CFinalCommitment) :
    collectCommitments env vtx ret = .ok ret := by
  induction vtx with
  | nil => rfl
  | cons tx _ ih =>
    rw [collectCommitments, if_neg (absent tx (.head _))]
    exact ih (List.forall_mem_cons.mp absent).2

theorem collectCommitments_ne_nil {ret found : List CFinalCommitment} :
    collectCommitments env vtx ret = .ok found ->
      (ret ≠ [] \/ ∃ tx ∈ vtx, tx.nType = .quorumCommitment) -> found ≠ [] := by
  induction vtx generalizing ret found with
  | nil =>
    intro collected present
    cases collected
    rcases present with nonempty | ⟨tx, member, _⟩
    · exact nonempty
    · cases member
  | cons tx _ ih =>
    intro collected present
    rw [collectCommitments] at collected
    split at collected
    · split at collected
      · cases collected
      · split at collected
        · cases collected
        · exact ih collected (.inl (by simp))
    · next ordinary =>
      refine ih collected ?_
      rcases present with nonempty | ⟨other, member, typed⟩
      · exact .inl nonempty
      · rcases List.mem_cons.mp member with same | later
        · rw [same] at typed
          exact absurd typed ordinary
        · exact .inr ⟨other, later, typed⟩

/-- Before activation, the commitments of a block are found exactly if it has none. -/
theorem getCommitmentsFromBlock_of_premature
    {pindex : BlockPosition} (premature : pindex.nHeight < env.DIP0003Height) :
    (∃ qcs, getCommitmentsFromBlock env vtx pindex = .ok qcs) <->
      ∀ tx ∈ vtx, tx.nType ≠ .quorumCommitment := by
  constructor
  · intro found tx member typed
    rcases found with ⟨qcs, found⟩
    unfold getCommitmentsFromBlock at found
    split at found
    · cases found
    next ret collected =>
    have nonempty := collectCommitments_ne_nil collected (.inr ⟨tx, member, typed⟩)
    cases ret with
    | nil => exact nonempty rfl
    | cons _ _ =>
      rw [if_pos (by simp [premature])] at found
      cases found
  · intro absent
    unfold getCommitmentsFromBlock
    rw [collectCommitments_of_none absent]
    simp

end StakeCubeCoin.Validation
