import StakeCubeCoin.Llmq.MinedCache

namespace StakeCubeCoin.Llmq

open Primitives Library Evo List ProcessorState ProcessorSystem Function CFinalCommitment

/-!
# Commitments that can be mined

`ProcessMessage`, `AddMineableCommitment` and `GetMineableCommitment` of `llmq/blockprocessor.cpp`:
of the commitments that peers send for a quorum one is selected, to be mined when it is required.
-/

/-- The key of a commitment in `minableCommitmentsByQuorum`. -/
def CFinalCommitment.quorum (qc : CFinalCommitment) : LLMQType × Uint256 :=
  (qc.llmqType, qc.quorumHash)

def ProcessorState.selected (state : ProcessorState) (quorum : LLMQType × Uint256) :
    Option CFinalCommitment :=
  (state.minableCommitmentsByQuorum quorum).bind state.minableCommitments

/-- Every quorum has a commitment of its own, and every commitment is that of its quorum.
`minableCommitments` is indexed by the hash that the other map holds. -/
structure OneToOne (state : ProcessorState) : Prop where
  known : ∀ quorum hash, state.minableCommitmentsByQuorum quorum = some hash ->
    ∃ qc, state.minableCommitments hash = some qc /\ qc.quorum = quorum
  stored : ∀ hash qc, state.minableCommitments hash = some qc ->
    state.minableCommitmentsByQuorum qc.quorum = some hash

/-- The sections that change the two maps: `AddMineableCommitment`, which `UndoBlock` calls too, and
the end of `ProcessCommitment`. -/
inductive MineableEvent where
  | add (fqc : CFinalCommitment)
  | mine (qc : CFinalCommitment)

variable (env : LlmqEnv)

namespace MineableEvent

def commitment : MineableEvent -> CFinalCommitment
  | .add qc | .mine qc => qc

def effect (state : ProcessorState) : MineableEvent -> ProcessorState
  | .add fqc => (state.addMineableCommitment env fqc).2
  | .mine qc => state.dropMineableCommitment env qc

/-- No commitment is superseded, and only selected ones are mined. -/
def Orderly (state : ProcessorState) : MineableEvent -> Prop
  | .add fqc => ∀ known, state.selected fqc.quorum = some known ->
    fqc.countSigners <= known.countSigners
  | .mine qc => ∀ hash, state.minableCommitmentsByQuorum qc.quorum = some hash ->
    hash = env.serializeHash qc

end MineableEvent

open MineableEvent

/-- No two of the commitments have one hash. -/
def NoCollision (all : List CFinalCommitment) : Prop :=
  ∀ first ∈ all, ∀ second ∈ all,
    env.serializeHash first = env.serializeHash second -> first = second

/-- The maps match, and commitments are stored under their hashes. -/
structure Matched (all : List CFinalCommitment) (state : ProcessorState) : Prop
    extends OneToOne state where
  hashed : ∀ hash qc, state.minableCommitments hash = some qc ->
    qc ∈ all /\ env.serializeHash qc = hash

section

variable {env} {all : List CFinalCommitment} {state : ProcessorState} {fqc : CFinalCommitment}

theorem matched_fresh (evoDb : CEvoDB) : Matched env all (.fresh env evoDb) := by
  unfold ProcessorState.fresh
  exact ⟨⟨by simp, by simp⟩, by simp⟩

variable (distinct : NoCollision env all) (matched : Matched env all state) (member : fqc ∈ all)
include distinct matched member

/-- A commitment that supersedes none is selected only if there is none. -/
theorem Matched.add (orderly : Orderly env state (add fqc)) :
    Matched env all (state.addMineableCommitment env fqc).2 /\ ∀ quorum,
      (state.addMineableCommitment env fqc).2.selected quorum =
        (state.selected quorum).or (if fqc.quorum = quorum then some fqc else none) := by
  cases known : state.minableCommitmentsByQuorum (fqc.llmqType, fqc.quorumHash) with
  | none =>
    have new : state.minableCommitments (env.serializeHash fqc) = none := by
      by_contra there
      rcases Option.ne_none_iff_exists'.mp there with ⟨qc, found⟩
      rcases matched.hashed _ _ found with ⟨listed, hash⟩
      have there := matched.stored _ _ found
      rw [distinct qc listed fqc member hash, quorum, known] at there
      cases there
    rcases matched with ⟨⟨_, _⟩, _⟩
    simp only [addMineableCommitment, known, new, Option.isSome_none, Bool.false_eq_true, if_false]
    -- The hash is new, so no other entry of either map is touched.
    refine ⟨⟨⟨?_, ?_⟩, ?_⟩, fun quorum => ?_⟩
    · grind [update_apply, quorum]
    · grind [update_apply, quorum]
    · grind [update_apply]
    · unfold selected
      cases other : state.minableCommitmentsByQuorum quorum with
      | none => grind [update_apply, quorum]
      | some hash => grind [update_apply, quorum]
  | some old =>
    rcases matched.known _ _ known with ⟨oldFqc, found, _⟩
    have best : state.selected fqc.quorum = some oldFqc := by
      rw [selected, quorum, known]
      exact found
    simp only [addMineableCommitment, known, found, Nat.not_lt.mpr (orderly oldFqc best), if_false]
    grind

theorem Matched.mine (orderly : Orderly env state (mine fqc)) :
    Matched env all (state.dropMineableCommitment env fqc) := by
  rcases matched with ⟨⟨_, _⟩, _⟩
  unfold dropMineableCommitment cacheErase setCache
  simp only [Orderly] at orderly
  refine ⟨⟨?_, ?_⟩, ?_⟩
  · grind [update_apply, quorum, NoCollision]
  · grind [update_apply, quorum]
  · grind [update_apply]

omit member

theorem Matched.run {events : List MineableEvent}
    (listed : ∀ event ∈ events, event.commitment ∈ all)
    (orderly : EveryStep (effect env) (Orderly env) state events) :
    Matched env all (events.foldl (effect env) state) := by
  induction events generalizing state with
  | nil => exact matched
  | cons event rest ih =>
    have member := listed event mem_cons_self
    refine ih ?_ (fun other later => listed other (mem_cons_of_mem _ later)) orderly.2
    cases event with
    | add fqc => exact (matched.add distinct member orderly.1).1
    | mine qc => exact matched.mine distinct member orderly.1

omit distinct matched

/-- **The two maps match as long as nothing is superseded and only what is selected is mined.**  A
commitment that replaces another one leaves it behind in the map by hash. -/
theorem oneToOne_of_orderly {evoDb : CEvoDB} {events : List MineableEvent}
    (distinct : NoCollision env (events.map commitment))
    (orderly : EveryStep (effect env) (Orderly env) (.fresh env evoDb) events) :
    OneToOne (events.foldl (effect env) (.fresh env evoDb)) :=
  ((matched_fresh evoDb).run distinct (fun _ => mem_map_of_mem) orderly).toOneToOne

end

/-- A hash that depends on every byte. -/
def summedEnv : LlmqEnv :=
  { sampleEnv with hash256 := fun bytes => BitVec.ofNat 256 (bytes.map UInt8.toNat).sum }

def smallCommitment : CFinalCommitment :=
  { sampleCommitment 1 with signers := [true, true, false] }

/-- The two maps after some sections. -/
def afterSections (events : List MineableEvent) : ProcessorState :=
  events.foldl (effect summedEnv) (.fresh summedEnv ⟨fun _ => none, [], []⟩)

theorem oneToOne_mined :
    OneToOne (afterSections [.add smallCommitment, .mine smallCommitment]) /\ smallCommitment.countSigners = 2 :=
  ⟨oneToOne_of_orderly (by unfold NoCollision; decide +kernel)
    ⟨by simp [Orderly, ProcessorState.selected, ProcessorState.fresh],
      fun _ same => (Option.some.inj same).symm, trivial⟩, rfl⟩

/-- A superseded commitment is not erased. -/
theorem superseded_stays :
    ¬ OneToOne (afterSections [.add smallCommitment, .add (sampleCommitment 1)]) := by
  intro matched
  have stays := matched.stored (summedEnv.serializeHash smallCommitment) smallCommitment
    (by decide +kernel)
  revert stays
  decide +kernel

/-! ## Commitments that are received -/

section

/-- The locked section of `GetMineableCommitment`. -/
def ProcessorState.mineable (params : LLMQParams) (quorumHash : Uint256) (state : ProcessorState) :
    Except ProcessorFailure (Option CFinalCommitment) :=
  match state.minableCommitmentsByQuorum (params.type, quorumHash) with
  | none => .ok (some
      { llmqType := params.type, quorumHash, signers := replicate params.size false
        validMembers := replicate params.size false })
  | some hash =>
    match state.minableCommitments hash with
    | none => .error .outOfRange
    | some qc => .ok (some qc)

def getMineableCommitment (params : LLMQParams) (chain : ChainView) (nHeight : Nat) :
    ProcessorProgram (Except ProcessorFailure (Option CFinalCommitment)) :=
  (isCommitmentRequired params chain nHeight).bind fun required =>
    let quorumHash := getQuorumBlockHash params chain nHeight
    if !required || quorumHash.isNull then .done (.ok none)
    else .atomically fun state => (state.mineable params quorumHash, state)

variable (chain : ChainView)

/-- `CQuorumBlockProcessor::ProcessMessage` for a commitment: by how much the peer misbehaves. -/
def processMessage (qc : CFinalCommitment) : ProcessorProgram (Except ProcessorFailure Nat) :=
  if qc.isNull env.scheme then .done (.ok 100)
  else
    match env.getLLMQParams qc.llmqType, chain.lookupBlockIndex qc.quorumHash with
    | none, _ => .done (.ok 100)
    | some _, none => .done (.ok 0)
    | some params, some nHeight =>
      if chain.hashes[nHeight]? ≠ some qc.quorumHash then .done (.ok 0)
      else if nHeight - nHeight % params.dkgInterval ≠ nHeight then .done (.ok 100)
      else
        -- The new commitment is dropped when the known one has at most as many signers.
        (Program.atomically fun state => ((state.selected qc.quorum).any fun known =>
          known.countSigners <= qc.countSigners, state)).bind fun better =>
          if better then .done (.ok 0)
          else if !qc.verify env qc.quorumHash true then .done (.ok 100)
          else
            (Program.atomically (addMineableCommitment env qc)).bind fun added =>
              .done (added.map fun _ => 0)

def receive (qcs : List CFinalCommitment) (state : ProcessorState) : ProcessorState :=
  qcs.foldl (fun state qc => ((processMessage env chain qc).run state).2) state

/-- A commitment that passes all checks, for a quorum of the active chain.  These are the tests that
`ProcessMessage` makes of a commitment on its own. -/
def Receivable (qc : CFinalCommitment) : Prop :=
  qc.isNull env.scheme = false /\ qc.verify env qc.quorumHash true = true /\
    ∃ params nHeight, env.getLLMQParams qc.llmqType = some params /\
      chain.lookupBlockIndex qc.quorumHash = some nHeight /\
      chain.hashes[nHeight]? = some qc.quorumHash /\ nHeight - nHeight % params.dkgInterval = nHeight

variable {env chain}

theorem Matched.processMessage {all : List CFinalCommitment} (distinct : NoCollision env all)
    {state : ProcessorState} (matched : Matched env all state) {fqc : CFinalCommitment}
    (member : fqc ∈ all) (receivable : Receivable env chain fqc) :
    Matched env all ((processMessage env chain fqc).run state).2 /\ ∀ quorum,
      ((processMessage env chain fqc).run state).2.selected quorum =
        (state.selected quorum).or (if fqc.quorum = quorum then some fqc else none) := by
  rcases receivable with ⟨proper, verified, params, nHeight, found, known, active, first⟩
  simp only [Llmq.processMessage, proper, found, known, active, first, verified, Program.bind,
    Program.atomically]
  cases best : state.selected fqc.quorum with
  | none => simpa [best, Program.run] using matched.add distinct member (by simp [Orderly, best])
  | some old =>
    by_cases better : old.countSigners <= fqc.countSigners
    · refine ⟨by simpa [best, better, Program.run] using matched, fun quorum => ?_⟩
      by_cases here : fqc.quorum = quorum
      · simp [<- here, best, better, Program.run]
      · simp [here, best, better, Program.run]
    · simpa [best, better, Program.run] using matched.add distinct member (by
        simp only [Orderly, best, Option.some.injEq, forall_eq']
        omega)

/-- The first commitment that is received for a quorum stays selected. -/
theorem Matched.selected_receive {all qcs : List CFinalCommitment} (distinct : NoCollision env all)
    {state : ProcessorState} (matched : Matched env all state) (listed : qcs ⊆ all)
    (receivable : ∀ qc ∈ qcs, Receivable env chain qc) (quorum : LLMQType × Uint256) :
    (receive env chain qcs state).selected quorum =
      (state.selected quorum).or (qcs.find? fun qc => qc.quorum = quorum) := by
  induction qcs generalizing state with
  | nil => exact Option.or_none.symm
  | cons fqc qcs ih =>
    rcases matched.processMessage distinct (listed mem_cons_self) (receivable fqc mem_cons_self) with
      ⟨after, selected⟩
    have rest := ih after (fun qc later => listed (mem_cons_of_mem _ later))
      fun qc later => receivable qc (mem_cons_of_mem _ later)
    refine rest.trans ?_
    rw [selected, find?_cons]
    split
    · next here => simp [here]
    · next other => simp [other]

/-- **The best commitment is kept exactly when it comes first.**  `ProcessMessage` returns early for
a commitment with as many signers as the known one or more, so that none replaces the first. -/
theorem best_kept_iff {evoDb : CEvoDB} {params : LLMQParams} {nHeight : Nat}
    {qcs : List CFinalCommitment} {first : CFinalCommitment} (distinct : NoCollision env qcs)
    (receivable : ∀ qc ∈ qcs, Receivable env chain qc)
    (found : (qcs.find? fun qc => qc.quorum = (params.type, getQuorumBlockHash params chain nHeight)) =
      some first) (required : ((isCommitmentRequired params chain nHeight).run
      (receive env chain qcs (.fresh env evoDb))).1 = true) :
    (∃ best, ((getMineableCommitment params chain nHeight).run
        (receive env chain qcs (.fresh env evoDb))).1 = .ok (some best) /\
      ∀ qc ∈ qcs, qc.quorum = first.quorum -> qc.countSigners <= best.countSigners) <->
      ∀ qc ∈ qcs, qc.quorum = first.quorum -> qc.countSigners <= first.countSigners := by
  have selected := (matched_fresh evoDb).selected_receive distinct (Subset.refl _) receivable
    (params.type, getQuorumBlockHash params chain nHeight)
  rw [found] at selected
  generalize receive env chain qcs (.fresh env evoDb) = state at required selected ⊢
  have mined : ((getMineableCommitment params chain nHeight).run state).1 = .ok (some first) := by
    unfold getMineableCommitment
    unfold isCommitmentRequired at required ⊢
    by_cases null : (getQuorumBlockHash params chain nHeight).isNull = true
    · simp [null, Program.run] at required
    simp only [null, Bool.false_eq_true, if_false, hasMinedCommitment,
      Program.atomically, Program.bind, Program.run] at required ⊢
    rcases Option.bind_eq_some_iff.mp selected with ⟨hash, known, stored⟩
    have answer : ∀ caches, ({ state with mapHasMinedCommitmentCache := caches } : ProcessorState).mineable
        params (getQuorumBlockHash params chain nHeight) = .ok (some first) := by
      intro caches
      simp only [mineable, known, stored]
    cases cached : (state.cacheGet params.type (getQuorumBlockHash params chain nHeight)).1 with
    | none | some fExists =>
      simp only [cached, Program.bind, Program.run] at required ⊢
      simp only [required]
      exact answer _
  rw [mined]
  simp

end

/-- The commitments of the first quorum are received, and one is asked for ten blocks later. -/
def mineableAfter (qcs : List CFinalCommitment) :
    Except ProcessorFailure (Option CFinalCommitment) :=
  ((getMineableCommitment (available_llmqs.head (by decide)) (sampleChain 10) 10).run
    (receive summedEnv (sampleChain 10) qcs (.fresh summedEnv ⟨fun _ => none, [], []⟩))).1

theorem best_kept_first : ∃ best, mineableAfter [sampleCommitment 1, smallCommitment] =
    .ok (some best) /\
    ∀ qc, qc ∈ [sampleCommitment 1, smallCommitment] -> qc.quorum = (sampleCommitment 1).quorum ->
      qc.countSigners <= best.countSigners :=
  (best_kept_iff (by unfold NoCollision; decide +kernel) (by
    rintro qc (_ | ⟨_, _ | ⟨_, ⟨⟩⟩⟩)
    · exact ⟨by decide, by decide +kernel, _, 0, rfl, rfl, rfl, rfl⟩
    · exact ⟨by decide, by decide +kernel, _, 0, rfl, rfl, rfl, rfl⟩) rfl (by decide +kernel)).mpr
    (by decide)

/-- The better commitment comes too late. -/
theorem best_dropped : mineableAfter [smallCommitment, sampleCommitment 1] =
    .ok (some smallCommitment) /\
    smallCommitment.countSigners < (sampleCommitment 1).countSigners := by
  decide +kernel

end StakeCubeCoin.Llmq
