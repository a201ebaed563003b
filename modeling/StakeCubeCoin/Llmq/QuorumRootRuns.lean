import StakeCubeCoin.Llmq.HeightIndex

namespace StakeCubeCoin.Llmq

open Primitives Library Evo Validation ProcessorState ProcessorSystem MiningSystem List CEvoDB

/-!
# The cached hashes along a run

The hashes of the commitments of the active quorums are cached under the list of these
quorums.  After a reorganization the same quorum can have another commitment.  If every block
with commitments is evaluated before it becomes part of the chain, the list that is cached then
does not contain a quorum whose commitment the block replaces; otherwise old hashes can be
used.
-/

/-! ## A cache that agrees with the chain -/

section

variable (env : LlmqEnv) (blocks : List ChainBlock)

/-- Each cached hash is that of the commitment that was mined for its quorum, if there is one. -/
def Agrees (cache : QuorumsCache) : Prop :=
  List.Forall₂
    (fun quorums hashes => quorums.1 = hashes.1 /\ List.Forall₂
        (fun quorumHash hash => ∀ qc, MinedBy env blocks quorums.1 quorumHash qc ->
          env.serializeHash qc = hash)
        quorums.2 hashes.2)
    cache.quorumsCached cache.qcHashesCached

def activeCache : QuorumsCache where
  quorumsCached := activeQuorums env blocks
  qcHashesCached := activeHashes env blocks

variable {env} {blocks}

theorem eq_map_of_forall₂ {α β : Type} {related : α -> β -> Prop} {value : α -> β} {items : List α}
    {values : List β} (all : List.Forall₂ related items values)
    (each : ∀ item ∈ items, ∀ other, related item other -> value item = other) :
    values = items.map value := by
  induction all with
  | nil => rfl
  | cons first _ ih =>
    have rest := ih (forall_mem_cons.mp each).2
    rw [map_cons, each _ (.head _) _ first, rest]

variable {cache : QuorumsCache}

/-- The cache that an evaluation leaves agrees with every chain in which the active quorums have no
other commitments. -/
theorem agrees_activeCache {others : List ChainBlock}
    (same : ∀ params qc other, qc ∈ activeCommitments env blocks params ->
      MinedBy env others params.type qc.quorumHash other -> other = qc) :
    Agrees env others (activeCache env blocks) := by
  unfold Agrees activeCache activeQuorums activeHashes
  rw [forall₂_map_left_iff, forall₂_map_right_iff, forall₂_same]
  intro params _
  refine ⟨rfl, ?_⟩
  rw [forall₂_map_left_iff, forall₂_map_right_iff, forall₂_same]
  intro qc member other mined
  rw [same params qc other member mined]

theorem Agrees.mono (agrees : Agrees env blocks cache) {others : List ChainBlock}
    (fewer : ∀ llmqType quorumHash qc, MinedBy env others llmqType quorumHash qc ->
      MinedBy env blocks llmqType quorumHash qc) : Agrees env others cache := by
  apply List.Forall₂.imp ?_ agrees
  rintro _ _ ⟨typed, related⟩
  refine ⟨typed, ?_⟩
  apply List.Forall₂.imp ?_ related
  intro quorumHash hash right qc mined
  exact right qc (fewer _ _ _ mined)

theorem agrees_empty : Agrees env blocks {} :=
  List.Forall₂.nil

end

/-! ## Evaluations between and within transactions -/

/-- The chain with the block processor, and the cache of the merkle root. -/
structure RootSystem where
  mining : MiningSystem
  cache : QuorumsCache := {}
  /-- Whether there was an evaluation since the last call. -/
  evaluated : Bool := false

/-- A step of the block processor, or an evaluation of a block on top of the chain. -/
inductive RootEvent where
  | processor (event : ProcessorEvent)
  | evaluate (vtx : List CTransaction)

namespace RootSystem

variable (env : LlmqEnv)

def fresh (genesis : ChainBlock) : RootSystem where
  mining := .fresh env genesis

variable (root : RootSystem)

/-- Evaluations take place between transactions, for a block that is assembled, or after the block
was processed. -/
def mayEvaluate : Bool :=
  match root.mining.system.thread with
  | .between => true
  | .returned (.processBlock _ _ _ _ _) (.ok ()) => true
  | _ => false

/-- `CalcCbTxMerkleRootQuorums` for a block on top of the chain. -/
def evaluate (vtx : List CTransaction) (cache : QuorumsCache) :
    Except ProcessorFailure Uint256 × QuorumsCache :=
  calcCbTxMerkleRootQuorums env root.mining.system.processor.evoDb vtx
    (root.mining.blocks.map ChainBlock.hash) cache

def step : RootEvent -> RootSystem
  | .processor event =>
    { root with
      mining := root.mining.step env event
      evaluated :=
        match event with
        | .call _ => false
        | _ => root.evaluated }
  | .evaluate vtx =>
    if root.mayEvaluate then { root with cache := (root.evaluate env vtx root.cache).2, evaluated := true }
    else root

/-- A block that is committed was evaluated before, or has no commitments but null ones. -/
def Checked : Prop :=
  match root.mining.system.thread with
  | .returned (.processBlock _ vtx _ _ _) _ =>
    root.evaluated = true \/ ∀ qc ∈ blockCommitments env vtx, qc.isNull env.scheme = true
  | _ => True

/-- A step as validation makes it, with the cache of mined commitments undisturbed, of blocks that
are checked.  Heights are of type `int`. -/
def Proper : RootEvent -> Prop
  | .processor .commit => root.mining.Proper env .commit /\ root.Checked env
  | .processor event => root.mining.Proper env event
  | .evaluate _ => root.mining.blocks.length <= 2 ^ 31

variable {env}

/-- The records and the cache agree with the chain.  The cache of the merkle root is static, so that
it has to be right also after blocks were disconnected. -/
structure Right (env : LlmqEnv) (root : RootSystem) : Prop where
  follows : root.mining.Follows env
  nonempty : root.mining.blocks ≠ []
  indexed : Indexed env root.mining.blocks (committed root.mining.system.processor)
  agrees : Agrees env root.mining.blocks root.cache
  current : root.evaluated = true ->
    root.mining.system.thread = .between \/ root.cache = activeCache env root.mining.blocks

theorem right_fresh {genesis : ChainBlock} (nonzero : genesis.hash ≠ 0) :
    (fresh env genesis).Right env where
  follows := follows_fresh nonzero
  nonempty := by simp [fresh, MiningSystem.fresh]
  indexed := by
    have nothing : ∀ llmqType nHeight, 0 < nHeight -> minedAt env [genesis] llmqType nHeight = [] :=
      fun llmqType nHeight positive => minedAt_eq_nil_of_le positive
    refine ⟨⟨?_, ?_, ?_⟩, fun _ _ _ => rfl⟩
    · intro llmqType nHeight positive
      exact le_trans (le_of_eq (congrArg List.length (nothing llmqType nHeight positive)))
        (Nat.zero_le 1)
    · intro llmqType nHeight positive within
      simp only [fresh, MiningSystem.fresh, length_singleton] at within
      omega
    · intro llmqType nHeight qc positive member
      exact absurd ((nothing llmqType nHeight positive) ▸ member) (by simp)
  agrees := agrees_empty
  current := fun impossible => absurd impossible (by simp [fresh])

variable {root : RootSystem}

section

variable (right : root.Right env)

include right

/-- When evaluations take place, the database lists what was mined in the chain. -/
theorem Right.listed (may : root.mayEvaluate = true) :
    Listed env root.mining.blocks root.mining.system.processor.evoDb := by
  have holds := right.follows.thread
  have indexed := right.indexed
  unfold mayEvaluate at may
  split at may
  · next between =>
    rw [between] at holds
    have same : committed root.mining.system.processor = root.mining.system.processor.evoDb := by
      rw [committed, rollbackCurTransaction, <- holds.1]
    rw [same] at indexed
    exact indexed.toListed
  · next chain _ pindex _ _ returned =>
    rw [returned] at holds
    rcases holds with ⟨_, begun, post⟩
    rw [begun.committed] at indexed
    rcases post.processed begun.recorded with ⟨_, written, new, _⟩
    rw [written]
    have onTop : OnTop env root.mining.blocks chain pindex := begun.fits
    exact indexed.toListed.processOps (le_of_eq onTop.nHeight.symm) new
  · cases may

/-- An evaluation computes the root from the chain alone. -/
theorem Right.evaluate_eq (may : root.mayEvaluate = true)
    (short : root.mining.blocks.length <= 2 ^ 31) (vtx : List CTransaction) {cache : QuorumsCache}
    (agrees : Agrees env root.mining.blocks cache) : root.evaluate env vtx cache =
      (rootWith env vtx (activeHashes env root.mining.blocks), activeCache env root.mining.blocks) := by
  have listed := right.listed may
  have positive := length_pos_iff.mpr right.nonempty
  have mined : getMinedAndActiveCommitmentsUntilBlock env root.mining.system.processor.evoDb
      (root.mining.blocks.map ChainBlock.hash) = some (activeQuorums env root.mining.blocks) := by
    apply mapM_eq_some_map
    intro params _
    rw [getMinedCommitmentsUntilBlock, length_map, minedUntil_of_listed right.follows.rules listed params.type _
      (by omega) (by omega)]
    rfl
  rw [evaluate, calcCbTxMerkleRootQuorums, mined]
  dsimp only
  split
  · next hit =>
    have hashes : cache.qcHashesCached = activeHashes env root.mining.blocks := by
      unfold Agrees at agrees
      rw [<- hit, activeQuorums, forall₂_map_left_iff] at agrees
      apply eq_map_of_forall₂ agrees
      rintro params _ ⟨_, hashes⟩ ⟨typed, related⟩
      rw [forall₂_map_left_iff] at related
      have same : hashes = (activeCommitments env root.mining.blocks params).map env.serializeHash := by
        apply eq_map_of_forall₂ related
        intro qc member hash right
        exact right qc (minedBy_of_active member)
      rw [same, Prod.mk.injEq]
      exact ⟨typed, rfl⟩
    cases cache with
    | mk _ _ =>
      dsimp only at hit hashes
      rw [activeCache, hit, hashes]
  · rw [minedHashes_of_listed listed]
    rfl

theorem Right.evaluated (short : root.mining.blocks.length <= 2 ^ 31) (vtx : List CTransaction) :
    (root.step env (.evaluate vtx)).Right env := by
  simp only [step]
  split
  · next may =>
    rw [right.evaluate_eq may short vtx right.agrees]
    refine ⟨right.follows, right.nonempty, right.indexed, ?_, fun _ => .inr rfl⟩
    apply agrees_activeCache
    intro params qc other member mined
    exact mined.unique right.follows.rules (minedBy_of_active member)
  · exact right

/-- A step that leaves the chain and what is committed. -/
theorem Right.processor {event : ProcessorEvent} (proper : root.mining.Proper env event)
    (blocks : (root.mining.step env event).blocks = root.mining.blocks)
    (same : ∀ key, (committed (root.mining.step env event).system.processor).read key =
      (committed root.mining.system.processor).read key)
    (current : (root.step env (.processor event)).evaluated = true ->
      (root.mining.step env event).system.thread = .between \/
        root.cache = activeCache env root.mining.blocks) :
    (root.step env (.processor event)).Right env where
  follows := right.follows.step event proper
  nonempty := by
    simp only [step]
    rw [blocks]
    exact right.nonempty
  indexed := by
    simp only [step]
    rw [blocks]
    exact right.indexed.of_read_eq same
  agrees := by
    simp only [step]
    rw [blocks]
    exact right.agrees
  current := by
    simp only [step] at current ⊢
    rw [blocks]
    exact current

theorem Right.advanced (proper : root.mining.Proper env .advance) :
    (root.step env (.processor .advance)).Right env := by
  have holds := right.follows.thread
  apply right.processor proper
  · simp only [MiningSystem.step]
  · intro key
    simp only [MiningSystem.step]
    cases thread : root.mining.system.thread with
    | running call rest =>
      rw [thread] at holds
      rcases holds with ⟨_, _, _, keeps⟩
      cases rest with
      | step _ _ =>
        simp only [ProcessorSystem.step, thread]
        rw [(keeps root.mining.system.processor).1]
      | done result => simp only [ProcessorSystem.step, thread]
    | _ => simp only [ProcessorSystem.step, thread]
  · intro evaluated
    rcases right.current evaluated with between | current
    · exact .inl (by simp only [MiningSystem.step, ProcessorSystem.step, between])
    · exact .inr current

/-- The chain after a call was committed, with its records, and a cache that agrees with it. -/
theorem Right.afterCommit (proper : root.mining.Proper env .commit) (checked : root.Checked env)
    {call : ProcessorCall} (returned : root.mining.system.thread = .returned call (.ok ()))
    (real : call.isJustCheck = false) :
    call.after root.mining.blocks ≠ [] /\ Indexed env (call.after root.mining.blocks)
        (committed (root.mining.step env .commit).system.processor) /\
      Agrees env (call.after root.mining.blocks) root.cache := by
  have holds := right.follows.thread
  rw [returned] at holds
  rcases holds with ⟨_, begun, post⟩
  have indexed := right.indexed
  rw [begun.committed] at indexed
  have idle : root.mining.system.isRunning = false := by rw [isRunning, returned]
  have visible : ∀ key, (committed (root.mining.step env .commit).system.processor).read key =
    root.mining.system.processor.evoDb.read key := by
    intro key
    simp only [MiningSystem.step, ProcessorSystem.step, idle, Bool.false_eq_true, if_false]
    exact read_commitCurTransaction root.mining.system.processor.evoDb key
  have after : (root.mining.step env .commit).blocks = call.after root.mining.blocks := by
    simp only [MiningSystem.step, returned]
  have rulesAfter := (right.follows.step .commit proper).rules
  rw [after] at rulesAfter
  cases call with
  | processBlock _ vtx pindex _ _ =>
    cases real
    refine ⟨by simp [ProcessorCall.after], ?_, ?_⟩
    · exact (indexed.extend right.follows.rules begun.recorded begun.fits post).of_read_eq visible
    unfold Checked at checked
    rw [returned] at checked
    rcases checked with evaluated | allNull
    · rcases right.current evaluated with between | current
      · rw [returned] at between
        cases between
      rw [current]
      apply agrees_activeCache
      intro params qc other member mined
      rcases minedBy_of_active member with ⟨nHeight, positive, present, hash⟩
      have within : nHeight < root.mining.blocks.length := by
        rcases mem_minedAt_iff.mp present with ⟨_, found, _⟩
        exact (List.getElem?_eq_some_iff.mp found).1
      rw [<- minedAt_append [⟨pindex.hash, vtx⟩] within] at present
      exact mined.unique rulesAfter ⟨nHeight, positive, present, hash⟩
    · apply right.agrees.mono
      rintro llmqType quorumHash qc ⟨nHeight, positive, present, hash⟩
      refine ⟨nHeight, positive, ?_, hash⟩
      rcases mem_minedAt_iff.mp present with ⟨block, found, active, listed, typed, proper⟩
      rcases getElem?_append_singleton found with old | ⟨_, new⟩
      · exact mem_minedAt_iff.mpr ⟨block, old, active, listed, typed, proper⟩
      · rw [new] at listed
        rw [allNull qc listed] at proper
        cases proper
  | undoBlock vtx pindex =>
    rcases begun.fits with ⟨init, nonempty, whole, nHeight⟩
    have left : (ProcessorCall.undoBlock vtx pindex).after root.mining.blocks = init := by
      rw [ProcessorCall.after, whole, dropLast_concat]
    have rules := right.follows.rules
    rw [left]
    rw [whole] at rules indexed
    refine ⟨nonempty, (indexed.shorten rules nonempty nHeight post).of_read_eq visible, ?_⟩
    apply right.agrees.mono
    rintro llmqType quorumHash qc ⟨height, positive, present, hash⟩
    refine ⟨height, positive, ?_, hash⟩
    rcases mem_minedAt_iff.mp present with ⟨block, found, rest⟩
    rw [whole]
    exact mem_minedAt_iff.mpr ⟨block, getElem?_append_of_some _ found, rest⟩

theorem Right.step (event : RootEvent)
    (proper : root.Proper env event) : (root.step env event).Right env := by
  cases event with
  | evaluate vtx => exact right.evaluated proper vtx
  | processor event =>
    cases event with
    | call call =>
      apply right.processor proper
      · simp only [MiningSystem.step]
      · intro key
        simp only [MiningSystem.step, ProcessorSystem.step]
        split <;> rfl
      · intro impossible
        cases impossible
    | advance => exact right.advanced proper
    | commit =>
      rcases proper with ⟨proper, checked⟩
      cases thread : root.mining.system.thread with
      | between =>
        have idle : root.mining.system.isRunning = false := by rw [isRunning, thread]
        have holds := right.follows.thread
        rw [thread] at holds
        have same : committed root.mining.system.processor = root.mining.system.processor.evoDb := by
          rw [committed, rollbackCurTransaction, <- holds.1]
        apply right.processor proper
        · simp only [MiningSystem.step, thread]
        · intro key
          rw [same]
          simp only [MiningSystem.step, ProcessorSystem.step, idle, Bool.false_eq_true, if_false]
          exact read_commitCurTransaction root.mining.system.processor.evoDb key
        · intro _
          simp only [MiningSystem.step, ProcessorSystem.step, idle, Bool.false_eq_true, if_false]
          exact .inl rfl
      | running call _ =>
        have busy : root.mining.system.isRunning = true := by rw [isRunning, thread]
        have stepped : root.mining.step env .commit = root.mining := by
          simp only [MiningSystem.step, ProcessorSystem.step, busy, thread, if_true]
        apply right.processor proper
        · rw [stepped]
        · rw [stepped]
          exact fun _ => rfl
        · rw [stepped]
          exact right.current
      | returned call _ =>
        have orderly := proper.1
        simp only [Orderly, thread] at orderly
        rcases orderly with ⟨ok, real⟩
        subst ok
        rcases right.afterCommit proper checked thread real with ⟨nonempty, indexed, agrees⟩
        have idle : root.mining.system.isRunning = false := by rw [isRunning, thread]
        have after : (root.mining.step env .commit).blocks = call.after root.mining.blocks := by
          simp only [MiningSystem.step, thread]
        refine ⟨right.follows.step .commit proper, ?_, ?_, ?_, ?_⟩
        · simpa only [RootSystem.step, after] using nonempty
        · simpa only [RootSystem.step, after] using indexed
        · simpa only [RootSystem.step, after] using agrees
        · intro _
          simp only [RootSystem.step, MiningSystem.step, ProcessorSystem.step, idle,
            Bool.false_eq_true, if_false]
          exact .inl rfl
    -- A rollback or a query does not touch the chain or what is committed.
    | _ =>
      apply right.processor proper
      · simp only [MiningSystem.step]
      · intro key
        simp only [MiningSystem.step, ProcessorSystem.step]
        split <;> rfl
      · intro evaluated
        simp only [MiningSystem.step, ProcessorSystem.step]
        split <;> first | exact right.current evaluated | exact .inl rfl

end

/-- What the database holds does not depend on evaluations. -/
theorem Right.mining_step {mining : MiningSystem} (right : ({ mining } : RootSystem).Right env)
    {event : ProcessorEvent} (proper : mining.Proper env event) :
    ({ mining := mining.step env event } : RootSystem).Right env := by
  -- With a cache filled just now, every commit is a checked one.
  have filled : ({ mining, cache := activeCache env mining.blocks, evaluated := true } : RootSystem).Right env :=
    { right with
      agrees := agrees_activeCache fun _ _ _ active mined =>
        mined.unique right.follows.rules (minedBy_of_active active)
      current := fun _ => .inr rfl }
  have next := filled.step (.processor event) (by
    cases event with
    | commit =>
      refine ⟨proper, ?_⟩
      unfold Checked
      split <;> simp
    | _ => exact proper)
  exact { next with agrees := agrees_empty, current := by simp }

/-- Between two transactions, the database lists the quorums that the chain mined last, the latest
first, and has their commitments. -/
theorem minedCommitments_of_run (env : LlmqEnv) (genesis : ChainBlock) (nonzero : genesis.hash ≠ 0)
    (events : List ProcessorEvent)
    (proper : EveryStep (MiningSystem.step env) (MiningSystem.Proper env) (.fresh env genesis) events) :
    let last := events.foldl (MiningSystem.step env) (.fresh env genesis)
    last.system.thread = .between -> last.blocks.length <= 2 ^ 31 -> ∀ llmqType maxCount,
      let mined := (minedDownFrom env last.blocks llmqType (last.blocks.length - 1)).take maxCount
      getMinedCommitmentsUntilBlock last.system.processor.evoDb llmqType (last.blocks.map ChainBlock.hash)
          maxCount = some (mined.map CFinalCommitment.quorumHash) /\
        ∀ qc ∈ mined, ∃ block ∈ last.blocks, last.system.processor.evoDb.read
          (minedKey llmqType qc.quorumHash) = some (minedRecord qc block.hash) := by
  intro last between short llmqType maxCount
  have right : ({ mining := last } : RootSystem).Right env := @EveryStep.last _ _ (MiningSystem.step env)
    (fun mining => ({ mining } : RootSystem).Right env) _ (fun _ _ right proper => right.mining_step proper)
    _ _ (right_fresh nonzero) proper
  have listed := right.listed (by rw [mayEvaluate, between])
  constructor
  · rw [getMinedCommitmentsUntilBlock, length_map]
    exact minedUntil_of_listed right.follows.rules listed llmqType maxCount
      (Nat.sub_one_lt_of_lt (length_pos_iff.mpr right.nonempty)) (by omega)
  · intro qc member
    rcases mem_minedDownFrom (mem_of_mem_take member) with ⟨nHeight, positive, here⟩
    rcases listed.records llmqType nHeight qc positive here with ⟨block, found, stored⟩
    exact ⟨block, mem_of_getElem? found, stored⟩

set_option maxRecDepth 100000 in
theorem minedCommitments_of_mined_commitment :
    let last := sampleMined.foldl (MiningSystem.step sampleEnv) (.fresh sampleEnv sampleGenesis)
    getMinedCommitmentsUntilBlock last.system.processor.evoDb 100 (last.blocks.map ChainBlock.hash) 2 =
      some [1000] := by
  have between : ∀ {thread : BlockThread}, thread.ctorIdx = 0 -> thread = .between := by
    intro thread first
    cases thread <;> trivial
  have mined := (minedCommitments_of_run sampleEnv sampleGenesis (by decide) sampleMined sampleMined_proper
    (between (by decide +kernel)) (by decide +kernel) 100 2).1
  exact mined.trans (by decide +kernel)

/-- In a run of checked blocks, an evaluation on top of the chain gives what it would give with an
empty cache, and for a block whose commitments can be collected the root of its chain. -/
theorem evaluate_of_run (env : LlmqEnv) (genesis : ChainBlock) (nonzero : genesis.hash ≠ 0)
    (events : List RootEvent)
    (proper : EveryStep (RootSystem.step env) (Proper env) (fresh env genesis) events)
    (may : (events.foldl (RootSystem.step env) (fresh env genesis)).mayEvaluate = true)
    (short : (events.foldl (RootSystem.step env) (fresh env genesis)).mining.blocks.length <= 2 ^ 31)
    (vtx : List CTransaction) :
    let last := events.foldl (RootSystem.step env) (fresh env genesis)
    (last.evaluate env vtx last.cache).1 = (last.evaluate env vtx {}).1 /\
      (Evaluable env vtx last.mining.blocks.length ->
        (last.evaluate env vtx last.cache).1 = chainRoot env last.mining.blocks vtx) := by
  have right : (events.foldl (RootSystem.step env) (fresh env genesis)).Right env :=
    @EveryStep.last _ _ (RootSystem.step env) (Right env) (Proper env)
      (fun _ event right proper => right.step event proper) _ events (right_fresh nonzero) proper
  dsimp only
  rw [right.evaluate_eq may short vtx right.agrees, right.evaluate_eq may short vtx agrees_empty]
  exact ⟨rfl, fun evaluable => rootWith_activeHashes evaluable⟩

/-! ## A quorum that is mined again -/

/-- A hash that depends on every byte. -/
def sampleEnv : LlmqEnv :=
  { ProcessorSystem.sampleEnv with
    hash256 := fun bytes => BitVec.ofNat 256 (bytes.map UInt8.toNat).sum }

/-- The transaction of a call, with or without an evaluation before it is committed. -/
def sampleTransaction (call : ProcessorCall) (evaluation : List RootEvent) : List RootEvent :=
  .processor (.call call) :: (List.replicate 9 (.processor .advance) ++ (evaluation ++ [.processor .commit]))

def sampleBlock (prevHeight : Fin 99) (vtx : List CTransaction) : ProcessorCall :=
  .processBlock (sampleChain prevHeight.succ) vtx (samplePosition prevHeight) false true

def sampleTx (membersSig : CBLSSignature) : CTransaction :=
  ProcessorSystem.sampleTx (ProcessorSystem.sampleCommitment membersSig)

def sampleNine : List RootEvent :=
  [0, 1, 2, 3, 4, 5, 6, 7, 8].flatMap fun prevHeight =>
    sampleTransaction (sampleBlock prevHeight []) [.evaluate []]

/-- A step of a run in which blocks are connected, each of them after an evaluation. -/
def evaluates (env : LlmqEnv) (root : RootSystem) : RootEvent -> Bool
  | .processor .commit => root.mining.connects env .commit && root.evaluated
  | .processor event => root.mining.connects env event
  | .evaluate _ => decide (root.mining.blocks.length <= 2 ^ 31)

theorem proper_of_evaluates {event : RootEvent}
    (evaluated : root.evaluates env event = true) : root.Proper env event := by
  unfold evaluates at evaluated
  split at evaluated
  · rw [Bool.and_eq_true] at evaluated
    refine ⟨proper_of_connects evaluated.1, ?_⟩
    unfold Checked
    split
    · exact .inl evaluated.2
    · trivial
  · next event other =>
    cases event with
    | commit => exact absurd rfl other
    | _ => exact proper_of_connects evaluated
  · rw [decide_eq_true_eq] at evaluated
    exact evaluated

set_option maxRecDepth 100000 in
/-- After a block with a commitment, evaluations give what the chain says. -/
theorem evaluate_after_mined_commitment :
    let last := (sampleNine ++ sampleTransaction (sampleBlock 9 [sampleTx 1]) [.evaluate []]).foldl
      (RootSystem.step sampleEnv) (fresh sampleEnv sampleGenesis)
    (last.evaluate sampleEnv [] last.cache).1 = (last.evaluate sampleEnv [] {}).1 /\
      (last.evaluate sampleEnv [] last.cache).1 = chainRoot sampleEnv last.mining.blocks [] /\
      (last.evaluate sampleEnv [] last.cache).1 = .ok 360 := by
  have evaluated : EveryStep (RootSystem.step sampleEnv) (fun root event => root.evaluates sampleEnv event = true)
      (fresh sampleEnv sampleGenesis)
      (sampleNine ++ sampleTransaction (sampleBlock 9 [sampleTx 1]) [.evaluate []]) := by
    decide +kernel
  have right := evaluate_of_run sampleEnv sampleGenesis (by decide) _
    (evaluated.mono fun _ _ => proper_of_evaluates) (by decide +kernel) (by decide +kernel) []
  have evaluable := right.2 ⟨⟨[], by simp [getCommitmentsFromBlock, collectCommitments]⟩,
    by simp [blockCommitments], by simp, by simp⟩
  exact ⟨right.1, evaluable, by decide +kernel⟩

/-- The chain of ten blocks, when another block for the next height is known. -/
def sampleFork : ChainView where
  hashes := (sampleChain 10).hashes
  lookupBlockIndex := fun hash => if hash = 2010 then some 10 else sampleLookup hash
  indexed := by
    intro nHeight hash found
    have known := (sampleChain 10).indexed nHeight hash found
    have different : hash ≠ 2010 := by
      intro same
      rw [same] at known
      cases known
    rw [if_neg different]
    exact known

def sampleForkPosition : BlockPosition :=
  { samplePosition 9 with hash := 2010 }

/-- Nine blocks are connected, and a tenth one with a commitment, on which a block is evaluated.
Then the tenth block is replaced by one with another commitment for the same quorum.  Neither of the
two was evaluated, as when its coinbase has no root or its scripts are not checked. -/
def sampleEvents : List RootEvent :=
  sampleNine ++
    (sampleTransaction (sampleBlock 9 [sampleTx 1]) [] ++ (.evaluate [] ::
      (sampleTransaction (.undoBlock [sampleTx 1] (samplePosition 9)) [] ++
        sampleTransaction (.processBlock sampleFork [sampleTx 2] sampleForkPosition false true) [])))

def sampleRun : RootSystem :=
  sampleEvents.foldl (RootSystem.step sampleEnv) (fresh sampleEnv sampleGenesis)

set_option maxRecDepth 100000 in
/-- The next evaluation finds the quorum in the cache, with the hash of the commitment that is no
longer in the chain. -/
theorem replaced_commitment_is_still_cached :
    sampleRun.mayEvaluate = true /\ (sampleRun.evaluate sampleEnv [] sampleRun.cache).1 = .ok 360 /\
      (sampleRun.evaluate sampleEnv [] {}).1 = .ok 361 := by
  decide +kernel

end RootSystem
end StakeCubeCoin.Llmq
