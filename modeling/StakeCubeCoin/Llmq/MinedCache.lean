import StakeCubeCoin.Library.Trace
import StakeCubeCoin.Llmq.ProcessorSpec

namespace StakeCubeCoin.Llmq

open Primitives Library Evo Validation ProcessorState List

/-!
# The cache of mined commitments

One thread connects and disconnects blocks: it opens a transaction of the database, calls
`ProcessBlock` or `UndoBlock`, and commits or rolls back.  Other threads call
`HasMinedCommitment` at any time.  Between transactions the cache agrees with the records, as
long as no rollback takes back a record that is in the cache, and no query inserts what has
changed since it was read.
-/

/-- A call of the thread that connects and disconnects blocks. -/
inductive ProcessorCall where
  | processBlock (chain : ChainView) (vtx : List CTransaction) (pindex : BlockPosition)
    (fJustCheck fBLSChecks : Bool)
  | undoBlock (vtx : List CTransaction) (pindex : BlockPosition)

def ProcessorCall.program (env : LlmqEnv) : ProcessorCall -> ProcessorMethod
  | .processBlock chain vtx pindex fJustCheck fBLSChecks =>
    Llmq.processBlock env chain vtx pindex fJustCheck fBLSChecks
  | .undoBlock vtx pindex => Llmq.undoBlock env vtx pindex

/-- Where the thread stands that connects and disconnects blocks. -/
inductive BlockThread where
  | between
  | running (call : ProcessorCall) (rest : ProcessorMethod)
  | returned (call : ProcessorCall) (result : Except ProcessorFailure Unit)

/-- Where another thread stands in `HasMinedCommitment`. -/
inductive QueryPlace where
  | reading (llmqType : LLMQType) (quorumHash : Uint256)
  | inserting (llmqType : LLMQType) (quorumHash : Uint256) (fExists : Bool)

/-- The block processor and its threads. -/
structure ProcessorSystem where
  processor : ProcessorState
  thread : BlockThread := .between
  queries : Nat -> Option QueryPlace := fun _ => none

/-- One section of one thread, or the beginning or end of a transaction. -/
inductive ProcessorEvent where
  | call (call : ProcessorCall)
  | advance
  | commit
  | rollback
  | ask (query : Nat) (llmqType : LLMQType) (quorumHash : Uint256)
  | read (query : Nat)
  | insert (query : Nat)

namespace ProcessorSystem

variable (env : LlmqEnv)

def fresh (evoDb : CEvoDB) : ProcessorSystem where
  processor := .fresh env evoDb

variable (system : ProcessorSystem)

/-- Whether the thread that connects blocks is within a call. -/
def isRunning : Bool :=
  match system.thread with
  | .running _ _ => true
  | _ => false

def finish (evoDb : CEvoDB) : ProcessorSystem :=
  { system with processor := { system.processor with evoDb }, thread := .between }

def setQuery (query : Nat) (place : Option QueryPlace) : ProcessorSystem :=
  { system with queries := Function.update system.queries query place }

/-- The effect of one section.  A section that its thread has not come to has none. -/
def step : ProcessorEvent -> ProcessorSystem
  | .call call =>
    if system.isRunning then system else { system with thread := .running call (call.program env) }
  | .advance =>
    match system.thread with
    | .running call (.step effect next) =>
      { system with
        processor := effect system.processor, thread := .running call (next system.processor) }
    | .running call (.done result) => { system with thread := .returned call result }
    | _ => system
  | .commit =>
    if system.isRunning then system else system.finish system.processor.evoDb.commitCurTransaction
  | .rollback =>
    if system.isRunning then system else system.finish system.processor.evoDb.rollbackCurTransaction
  | .ask query llmqType quorumHash =>
    match system.queries query with
    | some _ => system
    | none =>
      let cached := system.processor.cacheGet llmqType quorumHash
      ({ system with processor := cached.2 }).setQuery query
        (if cached.1.isSome then none else some (.reading llmqType quorumHash))
  | .read query =>
    match system.queries query with
    | some (.reading llmqType quorumHash) =>
      system.setQuery query
        (some (.inserting llmqType quorumHash (system.processor.hasRecord llmqType quorumHash)))
    | _ => system
  | .insert query =>
    match system.queries query with
    | some (.inserting llmqType quorumHash fExists) =>
      ({ system with processor := system.processor.cacheInsert llmqType quorumHash fExists }).setQuery
        query none
    | _ => system

/-- A rollback takes back no record that the cache answers for, and a query inserts what is still
so. -/
def Undisturbed : ProcessorEvent -> Prop
  | .rollback =>
    ∀ llmqType quorumHash fExists,
      (system.processor.mapHasMinedCommitmentCache llmqType).lookup quorumHash = some fExists ->
      (system.processor.evoDb.rollbackCurTransaction.read (minedKey llmqType quorumHash)).isSome =
        system.processor.hasRecord llmqType quorumHash
  | .insert query =>
    match system.queries query with
    | some (.inserting llmqType quorumHash fExists) =>
      fExists = system.processor.hasRecord llmqType quorumHash
    | _ => True
  | _ => True

/-- Outside of calls the cache is coherent, and a call that is running ends with a coherent
cache. -/
def Sound : Prop :=
  match system.thread with
  | .running _ rest => Program.Meets Rely (fun _ now => now.Coherent) rest system.processor
  | _ => system.processor.Coherent

theorem sound_fresh (evoDb : CEvoDB) : (fresh env evoDb).Sound := by
  intro llmqType quorumHash fExists found
  cases found

variable {system : ProcessorSystem}

theorem Sound.coherent (sound : system.Sound) (idle : system.isRunning = false) :
    system.processor.Coherent := by
  unfold Sound at sound
  unfold isRunning at idle
  split at sound
  · next running => simp [running] at idle
  · exact sound

theorem Sound.interrupted (sound : system.Sound) {now : ProcessorState}
    (moved : Rely system.processor now) (queries : Nat -> Option QueryPlace) :
    ({ system with processor := now, queries } : ProcessorSystem).Sound := by
  unfold Sound at sound ⊢
  split
  · next call rest running =>
    rw [running] at sound
    exact Program.Meets.interrupted (fun one two three => @Rely.trans one two three) sound moved
  · next idle =>
    split at sound
    · next call rest running => exact absurd running (idle call rest)
    · exact moved.coherent sound

theorem meets_program (call : ProcessorCall) {state : ProcessorState} (coherent : state.Coherent) :
    Program.Meets Rely (fun _ now => now.Coherent) (call.program env) state := by
  cases call with
  | processBlock _ vtx pindex _ _ =>
    exact (meets_processBlock coherent).mono fun _ _ ends => ends.1
  | undoBlock vtx pindex => exact (meets_undoBlock coherent).mono fun _ _ ends => ends.1

/-- The end of a transaction keeps the cache coherent if no cached record changes. -/
theorem sound_finish {evoDb : CEvoDB} (coherent : system.processor.Coherent)
    (same : ∀ llmqType quorumHash fExists,
      (system.processor.mapHasMinedCommitmentCache llmqType).lookup quorumHash = some fExists ->
      (evoDb.read (minedKey llmqType quorumHash)).isSome = system.processor.hasRecord llmqType quorumHash) :
    (system.finish evoDb).Sound := by
  intro llmqType quorumHash fExists cached
  rw [coherent llmqType quorumHash fExists cached]
  exact (same llmqType quorumHash fExists cached).symm

theorem Sound.step {env : LlmqEnv} (sound : system.Sound) (event : ProcessorEvent)
    (undisturbed : system.Undisturbed event) : (system.step env event).Sound := by
  cases event
  all_goals simp only [ProcessorSystem.step]
  case call call =>
    split
    · exact sound
    · next idle => exact meets_program env call (sound.coherent (Bool.not_eq_true _ ▸ idle))
  case advance =>
    split
    · next call _ next running =>
      unfold Sound at sound
      rw [running] at sound
      exact sound system.processor (Rely.refl _)
    · next call _ running =>
      unfold Sound at sound
      rw [running] at sound
      exact sound system.processor (Rely.refl _)
    · exact sound
  case commit =>
    split
    · exact sound
    next idle =>
    apply sound_finish (sound.coherent (Bool.not_eq_true _ ▸ idle))
    intro llmqType quorumHash fExists cached
    rw [CEvoDB.read_commitCurTransaction]
    rfl
  case rollback =>
    split
    · exact sound
    · next idle => exact sound_finish (sound.coherent (Bool.not_eq_true _ ▸ idle)) undisturbed
  case ask query llmqType quorumHash =>
    split
    · exact sound
    · exact sound.interrupted (rely_cacheGet _ llmqType quorumHash) _
  case read query =>
    split
    · exact sound.interrupted (Rely.refl _) _
    · exact sound
  case insert query =>
    simp only [Undisturbed] at undisturbed
    split
    · next llmqType quorumHash fExists place =>
      rw [place] at undisturbed
      exact sound.interrupted (rely_cacheInsert undisturbed) _
    · exact sound

/-- Where no rollback takes back a record that the cache answers for, and no query inserts what has
changed since, `HasMinedCommitment` answers between transactions exactly as the records say. -/
theorem hasMinedCommitment_between_transactions (env : LlmqEnv) (evoDb : CEvoDB)
    (events : List ProcessorEvent)
    (undisturbed : EveryStep (step env) Undisturbed (fresh env evoDb) events)
    (between : (events.foldl (step env) (fresh env evoDb)).thread = .between)
    (llmqType : LLMQType) (quorumHash : Uint256) : ((hasMinedCommitment llmqType quorumHash).run
      (events.foldl (step env) (fresh env evoDb)).processor).1 =
      (((events.foldl (step env) (fresh env evoDb)).processor.evoDb.read
        (.minedCommitment llmqType.toNat quorumHash)).isSome) := by
  have sound : (events.foldl (step env) (fresh env evoDb)).Sound :=
    @EveryStep.last _ _ (step env) Sound Undisturbed
      (fun _ event sound undisturbed => sound.step event undisturbed) _ events (sound_fresh env evoDb)
      undisturbed
  have coherent := sound.coherent (by rw [isRunning, between])
  exact ((meets_hasMinedCommitment (coherent llmqType quorumHash)).run Rely.refl).1

/-! ## A block with one commitment -/

/-- Parameters with one type of quorum, and code of other files that accepts. -/
def sampleEnv : LlmqEnv where
  scheme := { decodesPublicKey := fun _ => true, decodesSignature := fun _ => true }
  hash256 := fun bytes => BitVec.ofNat 256 (ofLittleEndian bytes)
  llmqs := available_llmqs.take 1
  distinct := by decide
  DIP0003Height := 0
  isQuorumTypeEnabled := fun _ _ => true
  membersSize := fun _ _ => 3
  verifySignatures := fun _ => true

def sampleHash (nHeight : Nat) : Uint256 :=
  BitVec.ofNat 256 (1000 + nHeight)

def sampleLookup (hash : Uint256) : Option Nat :=
  if 1000 <= hash.toNat /\ hash.toNat < 1100 then some (hash.toNat - 1000) else none

theorem sampleLookup_sampleHash {nHeight : Nat} (bound : nHeight < 100) :
    sampleLookup (sampleHash nHeight) = some nHeight := by
  have number : (sampleHash nHeight).toNat = 1000 + nHeight := by
    exact Nat.mod_eq_of_lt (Nat.lt_trans (by omega : 1000 + nHeight < 1100) (by decide))
  rw [sampleLookup, number, if_pos ⟨by omega, by omega⟩, Nat.add_sub_cancel_left]

instance neZero_hundred : NeZero 100 :=
  ⟨by decide⟩

def sampleChain (length : Fin 100) : ChainView where
  hashes := (range length).map sampleHash
  lookupBlockIndex := sampleLookup
  indexed := by
    intro nHeight hash found
    rw [getElem?_map, Option.map_eq_some_iff] at found
    rcases found with ⟨number, within, same⟩
    rcases List.getElem?_eq_some_iff.mp within with ⟨bound, value⟩
    rw [length_range] at bound
    rw [getElem_range] at value
    subst value
    rw [<- same]
    exact sampleLookup_sampleHash (Nat.lt_trans bound length.isLt)

def sampleCommitment (membersSig : CBLSSignature) : CFinalCommitment where
  llmqType := 100
  quorumHash := 1000
  signers := [true, true, true]
  validMembers := [true, true, true]
  quorumPublicKey := 1
  quorumVvecHash := 1
  quorumSig := 1
  membersSig := membersSig

def sampleTx (qc : CFinalCommitment) : CTransaction where
  vin := []
  vout := []
  nVersion := 3
  nType := .quorumCommitment
  vExtraPayload := ({ nHeight := 10, commitment := qc } : CFinalCommitmentTxPayload).serialize
  hash := 0

def samplePosition (prevHeight : Nat) : BlockPosition where
  hash := sampleHash (prevHeight + 1)
  nHeight := prevHeight + 1
  nTime := 0
  pprev := some { hash := sampleHash prevHeight, nHeight := prevHeight }
  height_eq := by
    intro prev same
    cases same
    rfl

/-- A block is processed after the block at a height, in at most eight sections. -/
def sampleCall (prevHeight : Fin 99) (vtx : List CTransaction) : List ProcessorEvent :=
  .call (.processBlock (sampleChain prevHeight.succ) vtx (samplePosition prevHeight) false true) ::
    replicate 9 .advance

instance neZero_ninety_nine : NeZero 99 :=
  ⟨by decide⟩

/-- A block with the commitment is processed after ten blocks, and then other events happen. -/
def sampleEvents (rest : List ProcessorEvent) : List ProcessorEvent :=
  sampleCall 9 [sampleTx (sampleCommitment 1)] ++ rest

def sampleRun (rest : List ProcessorEvent) : ProcessorSystem :=
  (sampleEvents rest).foldl (step sampleEnv) (fresh sampleEnv { db := fun _ => none })

set_option maxRecDepth 100000 in
/-- After the block was processed and committed, the commitment is answered for. -/
theorem committed_commitment_is_answered : ((hasMinedCommitment 100 1000).run
      (sampleRun [.commit, .ask 0 100 1000, .read 0, .insert 0]).processor).1 =
      ((sampleRun [.commit, .ask 0 100 1000, .read 0, .insert 0]).processor.evoDb.read
        (.minedCommitment (100 : LLMQType).toNat 1000)).isSome :=
  hasMinedCommitment_between_transactions sampleEnv { db := fun _ => none }
    (sampleEvents [.commit, .ask 0 100 1000, .read 0, .insert 0])
    ⟨trivial, trivial, trivial, trivial, trivial, trivial, trivial, trivial, trivial,
      trivial, trivial, trivial, trivial, rfl, trivial⟩ rfl 100 1000

set_option maxRecDepth 100000 in
/-- A query fills the cache from a record that is rolled back afterwards.  The commitment is then
answered for, and there is no record of it. -/
theorem rolled_back_commitment_is_answered :
    let last := sampleRun [.ask 0 100 1000, .read 0, .insert 0, .rollback]
    last.thread = .between /\ ((hasMinedCommitment 100 1000).run last.processor).1 = true /\
      last.processor.evoDb.read (.minedCommitment (100 : LLMQType).toNat 1000) = none :=
  ⟨rfl, rfl, rfl⟩

end ProcessorSystem
end StakeCubeCoin.Llmq
