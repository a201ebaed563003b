import StakeCubeCoin.Llmq.MiningRules

namespace StakeCubeCoin.Llmq

open Primitives Library Evo Validation ProcessorState ProcessorSystem Program List
open CEvoDB ProcessorCall

/-!
# Runs that keep the mining rules

Validation processes a block on top of the active chain, or undoes the last block, within a
transaction that it commits or rolls back; other threads query the block processor meanwhile.
Along a run in which the cache of mined commitments is not disturbed, the active chain keeps
the rules for commitments.
-/

/-! ## Validation and the active chain -/

/-- The call is for a block on top of the chain, or for its last block. -/
def Fits (env : LlmqEnv) (blocks : List ChainBlock) : ProcessorCall -> Prop
  | .processBlock chain _ pindex _ _ => OnTop env blocks chain pindex
  | .undoBlock vtx pindex =>
    ∃ init ≠ [], blocks = init ++ [⟨pindex.hash, vtx⟩] /\ pindex.nHeight = init.length

def ProcessorCall.after (blocks : List ChainBlock) : ProcessorCall -> List ChainBlock
  | .processBlock _ vtx pindex _ _ => blocks ++ [⟨pindex.hash, vtx⟩]
  | .undoBlock _ _ => blocks.dropLast

def ProcessorCall.isJustCheck : ProcessorCall -> Bool
  | .processBlock _ _ _ fJustCheck _ => fJustCheck
  | .undoBlock _ _ => false

/-- The block processor and the active chain. -/
structure MiningSystem where
  system : ProcessorSystem
  blocks : List ChainBlock

namespace MiningSystem

variable (env : LlmqEnv)

def fresh (genesis : ChainBlock) : MiningSystem where
  system := .fresh env { db := fun _ => none }
  blocks := [genesis]

/-- One section.  When a call that returned true is committed, the chain changes. -/
def step (mining : MiningSystem) (event : ProcessorEvent) : MiningSystem where
  system := mining.system.step env event
  blocks :=
    match event, mining.system.thread with
    | .commit, .returned call (.ok ()) => call.after mining.blocks
    | _, _ => mining.blocks

/-- How validation uses the block processor: in each transaction it processes a block on top of the
chain or undoes the last one, and it commits only a call that returned true and was not only a
check. -/
def Orderly (mining : MiningSystem) : ProcessorEvent -> Prop
  | .call call => mining.system.thread = .between /\ Fits env mining.blocks call
  | .commit =>
    match mining.system.thread with
    | .returned call result => result = .ok () /\ call.isJustCheck = false
    | _ => True
  | _ => True

/-- A step as validation makes it, with the cache undisturbed. -/
def Proper (mining : MiningSystem) (event : ProcessorEvent) : Prop :=
  mining.Orderly env event /\ mining.system.Undisturbed event

end MiningSystem

/-! ## What a call leaves to be committed -/

section

variable {env : LlmqEnv}

/-- What a call ends with, relative to the state in which it began. -/
def CallPost (env : LlmqEnv) (call : ProcessorCall) (base : ProcessorState)
    (result : Except ProcessorFailure Unit) (now : ProcessorState) : Prop :=
  now.Coherent /\ (result = .ok () -> match call with
    | .processBlock chain vtx pindex fJustCheck fBLSChecks =>
      (pindex.nHeight < env.DIP0003Height /\
        now.evoDb = base.evoDb.apply [.write .bestBlockUpgrade (.hash pindex.hash)]) \/
      ∃ qcs, BlockAccepted env chain vtx pindex fBLSChecks base qcs /\
        now.evoDb = base.evoDb.apply (blockOps env chain pindex.nHeight pindex.hash fJustCheck qcs ++
          [.write .bestBlockUpgrade (.hash pindex.hash)])
    | .undoBlock vtx pindex =>
      ∃ qcs prev, getCommitmentsFromBlock env vtx pindex.nHeight = .ok qcs /\ pindex.pprev = some prev /\
        now.evoDb = base.evoDb.apply (qcs.flatMap (undoOps env pindex.nHeight) ++
          [.write .bestBlockUpgrade (.hash prev.hash)]))

variable {base : ProcessorState}

theorem meets_callPost (call : ProcessorCall) (coherent : base.Coherent) :
    Meets Rely (CallPost env call base) (call.program env) base := by
  cases call with
  | processBlock _ vtx pindex _ _ => exact meets_processBlock coherent
  | undoBlock vtx pindex => exact meets_undoBlock coherent

variable {now : ProcessorState}

theorem CallPost.interrupted {call : ProcessorCall} {state : ProcessorState}
    {result : Except ProcessorFailure Unit} (post : CallPost env call base result state)
    (moved : Rely state now) : CallPost env call base result now := by
  refine ⟨moved.coherent post.1, fun ok => ?_⟩
  have facts := post.2 ok
  rw [<- moved.evoDb] at facts
  exact facts

/-- A processed block leaves a chain that keeps the rules, and its records. -/
theorem extended_of_callPost {blocks : List ChainBlock} (rules : MiningRules env blocks)
    (recorded : Recorded env blocks base) {chain : ChainView} {vtx : List CTransaction}
    {pindex : BlockPosition} {fBLSChecks : Bool} (onTop : OnTop env blocks chain pindex)
    (post : CallPost env (.processBlock chain vtx pindex false fBLSChecks) base (.ok ()) now) :
    MiningRules env (blocks ++ [⟨pindex.hash, vtx⟩]) /\
      Recorded env (blocks ++ [⟨pindex.hash, vtx⟩]) now := by
  have positive := onTop.length_pos
  have nHeight := onTop.nHeight
  rcases post.2 rfl with ⟨_, written⟩ | ⟨qcs, accepted, written⟩
  · have inactive : Not (Counts env blocks.length) := by
      rintro ⟨_, active⟩
      omega
    have unchecked : Counts env blocks.length ->
      ∃ qcs, BlockAccepted env chain vtx pindex fBLSChecks base qcs :=
      fun counts => absurd counts inactive
    refine ⟨rules.extend onTop recorded unchecked, ?_⟩
    intro llmqType quorumHash
    rw [minedIn_append_iff, hasRecord, written, read_apply_single]
    exact (recorded llmqType quorumHash).trans
      ⟨.inr, fun either => either.resolve_left fun both => inactive both.1⟩
  · refine ⟨rules.extend onTop recorded fun _ => ⟨qcs, accepted⟩, ?_⟩
    intro llmqType quorumHash
    have counts : Counts env blocks.length := ⟨positive, nHeight ▸ accepted.active⟩
    rw [minedIn_append_iff, hasRecord, written, isSome_read_blockOps,
      minesQuorum_perm (getCommitmentsFromBlock_spec accepted.commitments).1]
    constructor
    · rintro (mines | before)
      · exact .inl ⟨counts, mines⟩
      · exact .inr ((recorded llmqType quorumHash).mp before)
    · rintro (both | before)
      · exact .inl both.2
      · exact .inr ((recorded llmqType quorumHash).mpr before)

theorem not_minesQuorum_of_minedIn {init : List ChainBlock} {last : ChainBlock}
    (rules : MiningRules env (init ++ [last])) (nonempty : init ≠ []) {qcs : List CFinalCommitment}
    (found : getCommitmentsFromBlock env last.vtx init.length = .ok qcs) {llmqType : LLMQType}
    {quorumHash : Uint256} (mined : MinedIn env init llmqType quorumHash) :
    Not (MinesQuorum env qcs llmqType quorumHash) := by
  rintro ⟨qc, member, proper, types, hashes⟩
  have positive := length_pos_iff.mpr nonempty
  by_cases counts : Counts env init.length
  · rcases mined with ⟨_, _, otherQc, otherFound, otherCounts, otherMember, otherTypes,
      otherHashes, otherProper⟩
    have top : (init ++ [last])[init.length]? = some last := by
      rw [List.getElem?_append_right (le_refl _), Nat.sub_self]
      rfl
    have present := (getCommitmentsFromBlock_spec found).1.mem_iff.mp member
    have same := (rules.single _ _ qc _ _ otherQc top counts present
      (getElem?_append_of_some _ otherFound) otherCounts otherMember proper otherProper
      (types.trans otherTypes.symm) (hashes.trans otherHashes.symm)).1
    have within := (List.getElem?_eq_some_iff.mp otherFound).1
    omega
  · have premature := Nat.lt_of_not_le fun active => counts ⟨positive, active⟩
    unfold getCommitmentsFromBlock at found
    split at found
    · cases found
    split at found
    · cases found
    next allowed =>
    cases found
    have nothing : qcs = [] := by simpa [premature] using allowed
    rw [nothing] at member
    cases member

/-- An undone block leaves the records of the chain without it. -/
theorem shortened_of_callPost {init : List ChainBlock} {vtx : List CTransaction}
    {pindex : BlockPosition} (rules : MiningRules env (init ++ [⟨pindex.hash, vtx⟩]))
    (nonempty : init ≠ []) (nHeight : pindex.nHeight = init.length)
    (recorded : Recorded env (init ++ [⟨pindex.hash, vtx⟩]) base)
    (post : CallPost env (.undoBlock vtx pindex) base (.ok ()) now) : Recorded env init now := by
  rcases post.2 rfl with ⟨_, _, found, _, written⟩
  rw [nHeight] at found
  intro llmqType quorumHash
  have before := recorded llmqType quorumHash
  rw [hasRecord, minedIn_append_iff,
    <- minesQuorum_perm (getCommitmentsFromBlock_spec found).1] at before
  rw [hasRecord, written, CEvoDB.read_apply]
  rcases @lastOp_records env (undoOps env pindex.nHeight) _ _ _ _ llmqType quorumHash (fun _ => rfl)
    (fun _ => rfl)
    (fun qc => inversedHeightKey_ne qc.llmqType llmqType _ quorumHash) with ⟨never, none⟩ | ⟨mines, _, erased⟩
  · rw [none, Option.getD_none, before]
    exact or_iff_right fun both => never both.2
  rw [erased]
  constructor
  · intro there
    cases there
  · exact fun mined => absurd mines (not_minesQuorum_of_minedIn rules nonempty found mined)

/-! ## What every section keeps -/

def committed (state : ProcessorState) : CEvoDB :=
  state.evoDb.rollbackCurTransaction

theorem keeps_writeEvo (op : EvoOp) : Keeps committed (writeEvo op) :=
  keeps_atomically fun _ => rfl

theorem keeps_hasMinedCommitment (llmqType : LLMQType) (quorumHash : Uint256) :
    Keeps committed (hasMinedCommitment llmqType quorumHash) := by
  apply Keeps.bind (keeps_atomically fun _ => rfl)
  intro cached
  cases cached with
  | some fExists => trivial
  | none =>
    apply Keeps.bind (keeps_atomically fun _ => rfl)
    intro fExists
    exact keeps_atomically fun _ => rfl

theorem keeps_andThen {first second : ProcessorMethod}
    (one : Keeps committed first) (two : Keeps committed second) :
    Keeps committed (andThen first second) := by
  apply Keeps.bind one
  intro result
  cases result with
  | error _ => trivial
  | ok _ => exact two

theorem keeps_writeBestBlockUpgrade (hash : Uint256) :
    Keeps committed (writeBestBlockUpgrade hash) :=
  (keeps_writeEvo _).bind fun _ => trivial

theorem keeps_checkRequired (chain : ChainView) (qcs : List CFinalCommitment) (nHeight : Nat)
    (params : LLMQParams) : Keeps committed (checkRequired chain qcs nHeight params) := by
  have asked : Keeps committed (isCommitmentRequired params chain nHeight) := by
    unfold isCommitmentRequired
    dsimp only
    split
    · trivial
    · exact (keeps_hasMinedCommitment _ _).bind fun _ => trivial
  apply Keeps.bind asked
  intro required
  split
  · trivial
  · split <;> trivial

theorem keeps_processCommitment (chain : ChainView) (nHeight : Nat) (blockHash : Uint256)
    (fJustCheck fBLSChecks : Bool) (qc : CFinalCommitment) :
    Keeps committed (processCommitment env chain nHeight blockHash fJustCheck fBLSChecks qc) := by
  have stored : Keeps committed (storeCommitment env chain nHeight blockHash qc) := by
    apply (keeps_writeEvo _).bind
    intro _
    apply (keeps_writeEvo _).bind
    intro _
    exact keeps_atomically fun _ => rfl
  unfold processCommitment
  split
  · trivial
  dsimp only
  split
  · trivial
  split
  · trivial
  split
  · split <;> trivial
  apply Keeps.bind (keeps_hasMinedCommitment _ _)
  intro mined
  split
  · trivial
  split
  · trivial
  split
  · trivial
  · split
    · trivial
    · exact stored

theorem keeps_undoCommitment (nHeight : Nat) (qc : CFinalCommitment) :
    Keeps committed (undoCommitment env nHeight qc) := by
  unfold undoCommitment
  split
  · trivial
  apply (keeps_writeEvo _).bind
  intro _
  apply (keeps_writeEvo _).bind
  intro _
  apply Keeps.bind (keeps_atomically fun _ => rfl)
  intro _
  apply keeps_atomically
  intro state
  rw [committed, (rely_addMineableCommitment env qc state).evoDb]
  rfl

/-- The thread that connects blocks does not touch what was committed before. -/
theorem keeps_program (call : ProcessorCall) : Keeps committed (call.program env) := by
  cases call with
  | processBlock chain vtx pindex _ _ =>
    simp only [program, processBlock]
    split
    · exact keeps_writeBestBlockUpgrade _
    split
    · trivial
    refine keeps_andThen ?_ (keeps_andThen ?_ (keeps_writeBestBlockUpgrade _))
    · split
      · trivial
      · exact keeps_tryEach (keeps_checkRequired chain _ _) _
    · exact keeps_tryEach (keeps_processCommitment chain _ _ _ _) _
  | undoBlock vtx pindex =>
    simp only [program, undoBlock]
    split
    · trivial
    · refine keeps_andThen (keeps_tryEach (keeps_undoCommitment _) _) ?_
      split
      · trivial
      · exact keeps_writeBestBlockUpgrade _

end

/-! ## The rules along a run -/

namespace MiningSystem

variable {env : LlmqEnv}

/-- A call began with the records of the chain, and its own changes are not committed. -/
structure Begun (env : LlmqEnv) (mining : MiningSystem) (call : ProcessorCall)
    (base : ProcessorState) : Prop where
  fits : Fits env mining.blocks call
  recorded : Recorded env mining.blocks base
  committed : committed mining.system.processor = base.evoDb

/-- The chain keeps the rules, and the records are those of the chain.  While a call is running its
changes are not committed, and what it will have done is known from the state it began in. -/
structure Follows (env : LlmqEnv) (mining : MiningSystem) : Prop where
  rules : MiningRules env mining.blocks
  sound : mining.system.Sound
  thread :
    match mining.system.thread with
    | .between => mining.system.processor.evoDb.curDBTransaction = [] /\
      Recorded env mining.blocks mining.system.processor
    | .running call rest => ∃ base, Begun env mining call base /\
      Program.Meets Rely (CallPost env call base) rest mining.system.processor /\
      Program.Keeps Llmq.committed rest
    | .returned call result => ∃ base, Begun env mining call base /\
      CallPost env call base result mining.system.processor

theorem follows_fresh {genesis : ChainBlock} (nonzero : genesis.hash ≠ 0) :
    (fresh env genesis).Follows env := by
  -- The only block of the chain is the first one, which does not count.
  have uncounted : ∀ {nHeight : Nat} {block : ChainBlock}, [genesis][nHeight]? = some block ->
      ¬Counts env nHeight := by
    intro nHeight block found counts
    have within := (List.getElem?_eq_some_iff.mp found).1
    have positive := counts.1
    rw [length_singleton] at within
    omega
  refine ⟨⟨nodup_singleton _, ?_, ?_, ?_, ?_⟩, sound_fresh env _, rfl,
    fun llmqType quorumHash => ⟨?_, ?_⟩⟩
  · intro block member
    rw [mem_singleton.mp member]
    exact nonzero
  · exact fun _ _ _ found counts => absurd counts (uncounted found)
  · exact fun _ _ _ _ _ found counts => absurd counts (uncounted found)
  · exact fun _ _ _ _ _ _ found counts => absurd counts (uncounted found)
  · intro found
    exact absurd found (by simp [fresh, ProcessorSystem.fresh, ProcessorState.fresh, hasRecord, CEvoDB.read])
  · rintro ⟨_, _, _, found, counts, _⟩
    exact absurd counts (uncounted found)

variable {mining : MiningSystem}

section

variable (follows : mining.Follows env)

include follows

theorem Follows.interrupted {now : ProcessorState}
    (moved : Rely mining.system.processor now) (queries : Nat -> Option QueryPlace) : Follows env
      { mining with system := { mining.system with processor := now, queries } } where
  rules := follows.rules
  sound := follows.sound.interrupted moved queries
  thread := by
    have holds := follows.thread
    split
    · next between =>
      rw [between] at holds
      refine ⟨by rw [moved.evoDb]; exact holds.1, ?_⟩
      intro llmqType quorumHash
      rw [moved.hasRecord]
      exact holds.2 llmqType quorumHash
    · next call _ running =>
      rw [running] at holds
      rcases holds with ⟨base, begun, meets, keeps⟩
      refine ⟨base, { begun with committed := ?_ }, ?_, keeps⟩
      · rw [<- begun.committed, Llmq.committed, moved.evoDb]
        rfl
      · exact Meets.interrupted (fun one two three => @Rely.trans one two three) meets moved
    · next call _ returned =>
      rw [returned] at holds
      rcases holds with ⟨base, begun, post⟩
      refine ⟨base, { begun with committed := ?_ }, post.interrupted moved⟩
      rw [<- begun.committed, Llmq.committed, moved.evoDb]
      rfl

theorem Follows.call {call : ProcessorCall}
    (between : mining.system.thread = .between) (fits : Fits env mining.blocks call) :
    Follows env { mining with
      system := { mining.system with thread := .running call (call.program env) } } := by
  have holds := follows.thread
  rw [between] at holds
  have coherent : mining.system.processor.Coherent := by
    have sound := follows.sound
    unfold Sound at sound
    rwa [between] at sound
  refine ⟨follows.rules, meets_program env call coherent, ?_⟩
  refine ⟨mining.system.processor, ⟨fits, holds.2, ?_⟩, meets_callPost call coherent,
    keeps_program call⟩
  unfold Llmq.committed rollbackCurTransaction
  rw [<- holds.1]

theorem Follows.advance :
    Follows env { mining with system := mining.system.step env .advance } := by
  have holds := follows.thread
  have sound : (mining.system.step env .advance).Sound := follows.sound.step .advance trivial
  cases thread : mining.system.thread with
  | running call rest =>
    rw [thread] at holds
    rcases holds with ⟨base, begun, meets, keeps⟩
    cases rest with
    | step effect next =>
      have stepped : mining.system.step env .advance =
        { mining.system with
          processor := effect mining.system.processor
          thread := .running call (next mining.system.processor) } := by
        simp only [ProcessorSystem.step, thread]
      rw [stepped] at sound ⊢
      refine ⟨follows.rules, sound, base, ⟨begun.fits, begun.recorded, ?_⟩, meets _ (Rely.refl _),
        (keeps _).2⟩
      exact (keeps mining.system.processor).1.trans begun.committed
    | done result =>
      have stepped : mining.system.step env .advance =
        { mining.system with thread := .returned call result } := by
        simp only [ProcessorSystem.step, thread]
      rw [stepped] at sound ⊢
      exact ⟨follows.rules, sound, base, ⟨begun.fits, begun.recorded, begun.committed⟩,
        meets _ (Rely.refl _)⟩
  | _ =>
    have stepped : mining.system.step env .advance = mining.system := by
      simp only [ProcessorSystem.step, thread]
    rw [stepped]
    exact follows

theorem Follows.committed (idle : mining.system.isRunning = false)
    {blocks : List ChainBlock} (rules : MiningRules env blocks)
    (recorded : Recorded env blocks mining.system.processor) :
    Follows env
      { system := mining.system.finish mining.system.processor.evoDb.commitCurTransaction
        blocks := blocks } := by
  refine ⟨rules, ?_, rfl, ?_⟩
  · apply sound_finish (follows.sound.coherent idle)
    intro llmqType quorumHash fExists _
    rw [read_commitCurTransaction]
    rfl
  · intro llmqType quorumHash
    simp only [hasRecord, finish, read_commitCurTransaction]
    exact recorded llmqType quorumHash

theorem Follows.commit {call : ProcessorCall}
    (returned : mining.system.thread = .returned call (.ok ())) (real : call.isJustCheck = false) :
    Follows env
      { system := mining.system.finish mining.system.processor.evoDb.commitCurTransaction
        blocks := call.after mining.blocks } := by
  have holds := follows.thread
  rw [returned] at holds
  rcases holds with ⟨_, begun, post⟩
  have idle : mining.system.isRunning = false := by rw [isRunning, returned]
  cases call with
  | processBlock _ vtx pindex _ _ =>
    cases real
    rcases extended_of_callPost follows.rules begun.recorded begun.fits post with ⟨rules, recorded⟩
    exact follows.committed idle rules recorded
  | undoBlock vtx pindex =>
    rcases begun.fits with ⟨init, nonempty, whole, nHeight⟩
    have rules := follows.rules
    have recorded := begun.recorded
    rw [whole] at rules recorded
    have left : (ProcessorCall.undoBlock vtx pindex).after mining.blocks = init := by
      rw [ProcessorCall.after, whole, dropLast_concat]
    rw [left]
    exact follows.committed idle rules.shorten
      (shortened_of_callPost rules nonempty nHeight recorded post)

theorem Follows.rollback
    (idle : mining.system.isRunning = false) (undisturbed : mining.system.Undisturbed .rollback) :
    Follows env { mining with
      system := mining.system.finish mining.system.processor.evoDb.rollbackCurTransaction } := by
  have holds := follows.thread
  have sound := sound_finish (follows.sound.coherent idle) undisturbed
  refine ⟨follows.rules, sound, rfl, ?_⟩
  split at holds
  · next _ =>
    intro llmqType quorumHash
    have same : mining.system.processor.evoDb.rollbackCurTransaction = mining.system.processor.evoDb := by
      rw [rollbackCurTransaction, <- holds.1]
    rw [same]
    exact holds.2 llmqType quorumHash
  · next _ _ running => simp [isRunning, running] at idle
  · rcases holds with ⟨base, begun, _⟩
    intro llmqType quorumHash
    have same : mining.system.processor.evoDb.rollbackCurTransaction = base.evoDb := begun.committed
    rw [same]
    exact begun.recorded llmqType quorumHash

theorem Follows.step (event : ProcessorEvent)
    (proper : mining.Proper env event) : (mining.step env event).Follows env := by
  rcases proper with ⟨orderly, undisturbed⟩
  cases event with
  | call call =>
    rcases orderly with ⟨between, fits⟩
    have idle : mining.system.isRunning = false := by rw [isRunning, between]
    have begins := follows.call between fits
    simpa only [MiningSystem.step, ProcessorSystem.step, idle, Bool.false_eq_true, if_false] using begins
  | advance => exact follows.advance
  | commit =>
    cases thread : mining.system.thread with
    | between =>
      have idle : mining.system.isRunning = false := by rw [isRunning, thread]
      have holds := follows.thread
      rw [thread] at holds
      simp only [MiningSystem.step, ProcessorSystem.step, idle, thread]
      exact follows.committed idle follows.rules holds.2
    | running call _ =>
      have running : mining.system.isRunning = true := by rw [isRunning, thread]
      simpa only [MiningSystem.step, ProcessorSystem.step, running, thread, if_true] using follows
    | returned call _ =>
      have idle : mining.system.isRunning = false := by rw [isRunning, thread]
      simp only [Orderly, thread] at orderly
      rcases orderly with ⟨ok, real⟩
      subst ok
      have committed := follows.commit thread real
      simpa only [MiningSystem.step, ProcessorSystem.step, idle, thread, Bool.false_eq_true, if_false]
        using committed
  | rollback =>
    cases running : mining.system.isRunning with
    | true => simpa only [MiningSystem.step, ProcessorSystem.step, running, if_true] using follows
    | false =>
      have back := follows.rollback running undisturbed
      simpa only [MiningSystem.step, ProcessorSystem.step, running, Bool.false_eq_true, if_false]
        using back
  | ask query llmqType quorumHash =>
    simp only [MiningSystem.step, ProcessorSystem.step]
    split
    · exact follows
    · exact follows.interrupted (rely_cacheGet _ llmqType quorumHash) _
  | read query =>
    simp only [MiningSystem.step, ProcessorSystem.step]
    split
    · exact follows.interrupted (Rely.refl _) _
    · exact follows
  | insert query =>
    simp only [Undisturbed] at undisturbed
    simp only [MiningSystem.step, ProcessorSystem.step]
    split
    · next llmqType quorumHash fExists place =>
      rw [place] at undisturbed
      exact follows.interrupted (rely_cacheInsert undisturbed) _
    · exact follows

end

/-- In a run in which the cache of mined commitments is not disturbed, the active chain keeps the
rules for commitments. -/
theorem miningRules_of_run (env : LlmqEnv) (genesis : ChainBlock) (nonzero : genesis.hash ≠ 0)
    (events : List ProcessorEvent)
    (proper : EveryStep (step env) (Proper env) (fresh env genesis) events) :
    MiningRules env (events.foldl (step env) (fresh env genesis)).blocks :=
  (@EveryStep.last _ _ (step env) (Follows env) (Proper env)
    (fun _ event follows proper => follows.step event proper) _ events (follows_fresh nonzero) proper).rules

/-! ## A block that leaves out a commitment that is due -/

def sampleGenesis : ChainBlock where
  hash := sampleHash 0
  vtx := []

def sampleConnect (prevHeight : Fin 99) (vtx : List CTransaction) : List ProcessorEvent :=
  ProcessorSystem.sampleCall prevHeight vtx ++ [.commit]

instance {env : LlmqEnv} {blocks : List ChainBlock} {chain : ChainView} {pindex : BlockPosition} :
    Decidable (OnTop env blocks chain pindex) :=
  decidable_of_iff' _ (onTop_iff env blocks chain pindex)

/-- A step of a run in which blocks are connected and nothing else happens. -/
def connects (env : LlmqEnv) (mining : MiningSystem) (event : ProcessorEvent) : Bool :=
  match event, mining.system.thread with
  | .call (.processBlock chain _ pindex _ _), .between =>
    decide (OnTop env mining.blocks chain pindex)
  | .advance, _ => true
  | .commit, .returned call (.ok ()) => !call.isJustCheck
  | _, _ => false

theorem proper_of_connects {env : LlmqEnv} {mining : MiningSystem} {event : ProcessorEvent}
    (connected : mining.connects env event = true) : mining.Proper env event := by
  unfold connects at connected
  split at connected
  · next between =>
    rw [decide_eq_true_eq] at connected
    exact ⟨⟨between, connected⟩, trivial⟩
  · exact ⟨trivial, trivial⟩
  · next call returned =>
    refine ⟨?_, trivial⟩
    simpa only [Orderly, returned, true_and, Bool.not_eq_true'] using connected
  · cases connected

def sampleNine : List ProcessorEvent :=
  [0, 1, 2, 3, 4, 5, 6, 7, 8].flatMap fun prevHeight => sampleConnect prevHeight []

def sampleMined : List ProcessorEvent :=
  sampleNine ++ sampleConnect 9 [sampleTx (sampleCommitment 1)]

set_option maxRecDepth 100000 in
theorem sampleMined_proper :
    EveryStep (step sampleEnv) (Proper sampleEnv) (fresh sampleEnv sampleGenesis) sampleMined := by
  have connected :
    EveryStep (step sampleEnv) (fun mining event => mining.connects sampleEnv event = true)
      (fresh sampleEnv sampleGenesis) sampleMined := by
    decide +kernel
  exact connected.mono fun _ _ => proper_of_connects

set_option maxRecDepth 100000 in
/-- The rules hold after a commitment was mined. -/
theorem miningRules_of_mined_commitment :
    let last := sampleMined.foldl (step sampleEnv) (fresh sampleEnv sampleGenesis)
    last.blocks.map ChainBlock.vtx = replicate 10 [] ++ [[sampleTx (sampleCommitment 1)]] /\
      MiningRules sampleEnv last.blocks :=
  ⟨by decide +kernel,
    miningRules_of_run sampleEnv sampleGenesis (by decide) sampleMined sampleMined_proper⟩

/-- Nine blocks are connected.  A tenth one with a commitment is processed, another thread asks for
the commitment, and all is rolled back.  Then a tenth block without one is connected. -/
def sampleEvents : List ProcessorEvent :=
  sampleNine ++
    (ProcessorSystem.sampleEvents [.ask 0 100 1000, .read 0, .insert 0, .rollback] ++ sampleConnect 9 [])

def sampleBlocks : List ChainBlock :=
  (List.range 11).map fun nHeight => ⟨sampleHash nHeight, []⟩

set_option maxRecDepth 100000 in
theorem sampleEvents_blocks : (sampleEvents.foldl (step sampleEnv)
      (fresh sampleEnv sampleGenesis)).blocks = sampleBlocks := by
  decide +kernel

theorem vtx_of_sampleBlocks {nHeight : Nat} {block : ChainBlock}
    (found : sampleBlocks[nHeight]? = some block) : block.vtx = [] := by
  rcases mem_map.mp (mem_of_getElem? found) with ⟨_, _, same⟩
  rw [<- same]

/-- The tenth block is in the mining window and no commitment was mined, but it contains none. -/
theorem due_commitment_is_left_out : Not (MiningRules sampleEnv (sampleEvents.foldl (step sampleEnv)
        (fresh sampleEnv sampleGenesis)).blocks) := by
  rw [sampleEvents_blocks]
  intro rules
  let params : LLMQParams :=
    { type := 100, size := 3, minSize := 2, threshold := 2, dkgInterval := 24,
      dkgMiningWindowStart := 10, dkgMiningWindowEnd := 18, signingActiveQuorumCount := 2 }
  have due : Due sampleEnv params sampleBlocks 10 := by
    refine ⟨rfl, ?_⟩
    rintro _ _ _ _ _ found ⟨qc, member, _⟩
    rw [vtx_of_sampleBlocks found] at member
    cases member
  have present := (rules.required params (.head _) 10 ⟨sampleHash 10, []⟩ ⟨sampleHash 9, []⟩
    rfl ⟨by decide, by decide⟩ rfl rfl).1 due
  rcases present with ⟨_, qc, _, one, _⟩
  cases one

end MiningSystem
end StakeCubeCoin.Llmq
