import StakeCubeCoin.Llmq.BlockProcessor

namespace StakeCubeCoin.Llmq

open Primitives Library Evo Validation.PrevPosition
open Validation (Rejection BlockPosition)
open Program List ProcessorState CFinalCommitment LruCache
open CEvoDB hiding apply
open Meets

/-!
# What the programs of the block processor do

The cache is coherent when every answer in it is the one the database gives.  While a block is
processed other threads ask and insert what they have read; as long as that is right when it is
inserted, they leave the database alone and keep what is coherent so.  Under this assumption
each program has one specification: what its result means for the records, what it writes, and
that it leaves a coherent cache.
-/

namespace ProcessorState

variable (state : ProcessorState)

/-- The cache has no wrong answer for a quorum. -/
def Answers (llmqType : LLMQType) (quorumHash : Uint256) : Prop :=
  ∀ fExists, (state.mapHasMinedCommitmentCache llmqType).lookup quorumHash = some fExists ->
    fExists = state.hasRecord llmqType quorumHash

/-- The cache has no wrong answer: where it knows a quorum, it says whether there is a record of a
mined commitment. -/
def Coherent : Prop :=
  ∀ llmqType quorumHash, state.Answers llmqType quorumHash

/-- The cache has no wrong answer for another quorum. -/
def CoherentExcept (llmqType : LLMQType) (quorumHash : Uint256) : Prop :=
  ∀ otherType otherHash, (otherType ≠ llmqType \/ otherHash ≠ quorumHash) ->
    state.Answers otherType otherHash

/-- What other threads may do between two sections of a call.  They only ask, so that the database
stays and the cache gets no wrong answer. -/
structure Rely (state now : ProcessorState) : Prop where
  evoDb : now.evoDb = state.evoDb
  answers : ∀ llmqType quorumHash, state.Answers llmqType quorumHash ->
    now.Answers llmqType quorumHash

theorem Rely.refl : Rely state state where
  evoDb := rfl
  answers := fun _ _ => id

theorem Rely.trans {first second third : ProcessorState} (one : Rely first second)
    (two : Rely second third) : Rely first third where
  evoDb := two.evoDb.trans one.evoDb
  answers := fun llmqType quorumHash answers =>
    two.answers llmqType quorumHash (one.answers llmqType quorumHash answers)

variable {now state : ProcessorState}

theorem Rely.hasRecord (moved : Rely state now) (llmqType : LLMQType) (quorumHash : Uint256) :
    now.hasRecord llmqType quorumHash = state.hasRecord llmqType quorumHash := by
  rw [ProcessorState.hasRecord, moved.evoDb]
  rfl

theorem Rely.coherent (moved : Rely state now) (coherent : state.Coherent) : now.Coherent :=
  fun llmqType quorumHash => moved.answers llmqType quorumHash (coherent llmqType quorumHash)

variable {llmqType : LLMQType} {quorumHash : Uint256}

theorem Rely.coherentExcept (moved : Rely state now)
    (coherent : state.CoherentExcept llmqType quorumHash) :
    now.CoherentExcept llmqType quorumHash :=
  fun otherType otherHash different =>
    moved.answers otherType otherHash (coherent otherType otherHash different)

/-! ## Sections on the cache -/

theorem lookup_setCache (state : ProcessorState) (llmqType otherType : LLMQType)
    (change : LruCache Uint256 Bool -> LruCache Uint256 Bool) :
    (state.setCache llmqType change).mapHasMinedCommitmentCache otherType =
      if otherType = llmqType then change (state.mapHasMinedCommitmentCache llmqType)
      else state.mapHasMinedCommitmentCache otherType := by
  by_cases same : otherType = llmqType
  · subst same
    rw [if_pos rfl]
    exact Function.update_self _ _ _
  · rw [if_neg same]
    exact Function.update_of_ne same _ _

/-- A change of the cache after which every answer was there before, or is right. -/
theorem rely_setCache {change : LruCache Uint256 Bool -> LruCache Uint256 Bool}
    (answered : ∀ quorumHash fExists,
      (change (state.mapHasMinedCommitmentCache llmqType)).lookup quorumHash = some fExists ->
        (state.mapHasMinedCommitmentCache llmqType).lookup quorumHash = some fExists \/
          fExists = state.hasRecord llmqType quorumHash) :
    Rely state (state.setCache llmqType change) where
  evoDb := rfl
  answers := by
    intro otherType otherHash right fExists found
    rw [lookup_setCache] at found
    split at found
    · next same =>
      subst same
      rcases answered otherHash fExists found with before | true
      · exact right fExists before
      · exact true
    · exact right fExists found

theorem rely_cacheGet (state : ProcessorState) (llmqType : LLMQType) (quorumHash : Uint256) :
    Rely state (state.cacheGet llmqType quorumHash).2 := by
  change Rely state (state.setCache llmqType fun cache => (cache.get quorumHash).2)
  apply rely_setCache
  intro otherHash fExists found
  rw [lookup_get] at found
  exact .inl found

theorem rely_cacheInsert {fExists : Bool} (right : fExists = state.hasRecord llmqType quorumHash) :
    Rely state (state.cacheInsert llmqType quorumHash fExists) := by
  apply rely_setCache
  intro otherHash answer found
  by_cases same : otherHash = quorumHash
  · subst same
    rw [lookup_insert_self] at found
    exact .inr ((Option.some.inj found).symm.trans right)
  · exact .inl (lookup_of_lookup_insert same found)

theorem coherent_cacheErase (coherent : state.CoherentExcept llmqType quorumHash) :
    (state.cacheErase llmqType quorumHash).Coherent := by
  intro otherType otherHash
  by_cases different : otherType ≠ llmqType \/ otherHash ≠ quorumHash
  · exact (rely_setCache fun _ _ found => .inl (lookup_of_lookup_erase found)).answers
      otherType otherHash (coherent otherType otherHash different)
  rcases not_or.mp different with ⟨sameType, sameHash⟩
  rw [not_not.mp sameType, not_not.mp sameHash]
  intro fExists found
  rw [cacheErase, lookup_setCache, if_pos rfl, lookup_erase_self] at found
  cases found

/-! ## Sections on the database -/

theorem minedKey_inj {otherType : LLMQType} {otherHash : Uint256}
    (same : minedKey llmqType quorumHash = minedKey otherType otherHash) :
    llmqType = otherType /\ quorumHash = otherHash := by
  rcases EvoKey.minedCommitment.inj same with ⟨types, hashes⟩
  exact ⟨BitVec.eq_of_toNat_eq types, hashes⟩

variable {op : EvoOp}

theorem hasRecord_apply_of_ne (state : ProcessorState)
    (different : op.key ≠ minedKey llmqType quorumHash) :
    (state.apply op).hasRecord llmqType quorumHash = state.hasRecord llmqType quorumHash := by
  rw [hasRecord, apply, read_apply_single, if_neg different]
  rfl

theorem coherentExcept_apply (coherent : state.Coherent)
    (key : op.key = minedKey llmqType quorumHash) :
    (state.apply op).CoherentExcept llmqType quorumHash := by
  intro otherType otherHash different fExists found
  have elsewhere : op.key ≠ minedKey otherType otherHash := by
    intro same
    rcases minedKey_inj (key.symm.trans same) with ⟨sameType, sameHash⟩
    rcases different with differentType | differentHash
    · exact differentType sameType.symm
    · exact differentHash sameHash.symm
  rw [hasRecord_apply_of_ne state elsewhere]
  exact coherent otherType otherHash fExists found

theorem answers_apply (otherKind : ∀ llmqType quorumHash, op.key ≠ minedKey llmqType quorumHash)
    (answers : state.Answers llmqType quorumHash) :
    (state.apply op).Answers llmqType quorumHash := by
  intro fExists found
  rw [hasRecord_apply_of_ne state (otherKind llmqType quorumHash)]
  exact answers fExists found

theorem inversedHeightKey_ne (llmqType otherType : LLMQType) (nHeight : Nat)
    (quorumHash : Uint256) :
    inversedHeightKey llmqType nHeight ≠ minedKey otherType quorumHash := by
  intro same
  cases same

end ProcessorState

open ProcessorState

variable {state : ProcessorState}

/-- Where the cache is right, `HasMinedCommitment` answers from the records. -/
theorem meets_hasMinedCommitment {llmqType : LLMQType} {quorumHash : Uint256}
    (right : state.Answers llmqType quorumHash) :
    Meets Rely (fun answer now => answer = state.hasRecord llmqType quorumHash /\ Rely state now)
      (hasMinedCommitment llmqType quorumHash) state := by
  apply bind Rely.refl
  intro asked moved later further
  have reached : Rely state later :=
    (moved.trans (rely_cacheGet asked llmqType quorumHash)).trans further
  cases cached : (asked.cacheGet llmqType quorumHash).1 with
  | some fExists =>
    intro last still
    have found : (asked.mapHasMinedCommitmentCache llmqType).lookup quorumHash = some fExists := by
      rw [<- get_fst]
      exact cached
    refine ⟨?_, reached.trans still⟩
    rw [moved.answers llmqType quorumHash right fExists found, moved.hasRecord]
  | none =>
    apply bind Rely.refl
    apply meets_atomically
    intro read movedToRead beforeInsert quiet inserting movedToInsert last still
    have atRead : Rely state read := reached.trans movedToRead
    have atInsert : Rely state inserting := (atRead.trans quiet).trans movedToInsert
    refine ⟨atRead.hasRecord llmqType quorumHash, (atInsert.trans (rely_cacheInsert ?_)).trans still⟩
    rw [atRead.hasRecord, atInsert.hasRecord]

/-- Whether a commitment is required, according to the records. -/
def requiredNow (params : LLMQParams) (chain : ChainView) (nHeight : Nat) (state : ProcessorState) :
    Bool :=
  let quorumHash := getQuorumBlockHash params chain nHeight
  !quorumHash.isNull && isMiningPhase params nHeight && !state.hasRecord params.type quorumHash

theorem meets_isCommitmentRequired {params : LLMQParams} {chain : ChainView} {nHeight : Nat}
    (coherent : state.Coherent) :
    Meets Rely (fun required now => required = requiredNow params chain nHeight state /\ Rely state now)
      (isCommitmentRequired params chain nHeight) state := by
  unfold isCommitmentRequired requiredNow
  dsimp only
  split
  · next unknown =>
    intro now moved
    rw [unknown]
    exact ⟨rfl, moved⟩
  · next known =>
    apply bind Rely.refl
    refine (meets_hasMinedCommitment (coherent _ _)).mono ?_
    intro mined now answered last still
    rw [Bool.not_eq_true] at known
    rw [answered.1, known]
    exact ⟨rfl, answered.2.trans still⟩

theorem meets_writeEvo {op : EvoOp} {post : Unit -> ProcessorState -> Prop}
    (ends : ∀ now, Rely state now -> ∀ later, Rely (now.apply op) later -> post () later) :
    Meets Rely post (writeEvo op) state :=
  meets_atomically ends

/-- The two records of a commitment are written or erased.  Until its answer is dropped from the
cache, it is the only one that may be wrong. -/
theorem meets_records {llmqType : LLMQType} {quorumHash : Uint256} {nHeight : Nat}
    {mined height : EvoOp} {rest : ProcessorProgram α} {post : α -> ProcessorState -> Prop}
    (coherent : state.Coherent) (minedKey_eq : mined.key = minedKey llmqType quorumHash)
    (heightKey_eq : height.key = inversedHeightKey llmqType nHeight)
    (ends : ∀ now, now.CoherentExcept llmqType quorumHash ->
      now.evoDb = state.evoDb.apply [mined, height] -> Meets Rely post rest now) :
    Meets Rely post ((writeEvo mined).bind fun _ => (writeEvo height).bind fun _ => rest) state := by
  apply bind Rely.refl
  apply meets_writeEvo
  intro first toFirst afterFirst quiet
  apply bind Rely.refl
  apply meets_writeEvo
  intro second toSecond afterSecond quietAgain
  apply ends
  · refine quietAgain.coherentExcept ?_
    intro otherType otherHash different
    refine answers_apply ?_ (toSecond.coherentExcept (quiet.coherentExcept
      (coherentExcept_apply (toFirst.coherent coherent) minedKey_eq)) otherType otherHash different)
    intro llmqType quorumHash
    rw [heightKey_eq]
    exact inversedHeightKey_ne _ llmqType nHeight quorumHash
  · rw [quietAgain.evoDb, apply, toSecond.evoDb, quiet.evoDb, apply, toFirst.evoDb, apply_append]
    rfl

theorem meets_storeCommitment {env : LlmqEnv} {chain : ChainView} {nHeight : Nat}
    {blockHash : Uint256} {qc : CFinalCommitment} (coherent : state.Coherent) :
    Meets Rely (fun result now => result = .ok () /\
        now.evoDb = state.evoDb.apply (storeOps chain nHeight blockHash qc) /\ now.Coherent)
      (storeCommitment env chain nHeight blockHash qc) state := by
  refine meets_records coherent rfl rfl fun written except stored => ?_
  apply meets_atomically
  intro now moved last still
  refine ⟨rfl, ?_, still.coherent (coherent_cacheErase (moved.coherentExcept except))⟩
  rw [still.evoDb]
  change now.evoDb = _
  rw [moved.evoDb, stored]
  rfl

variable (env : LlmqEnv) (chain : ChainView)

/-- What it takes for a commitment to be accepted, according to the records. -/
structure CommitmentAccepted (nHeight : Nat) (fBLSChecks : Bool) (qc : CFinalCommitment)
    (state : ProcessorState) (params : LLMQParams) : Prop where
  params_eq : env.getLLMQParams qc.llmqType = some params
  known : (expectedQuorumHash chain params nHeight qc).isNull = false
  hash_eq : expectedQuorumHash chain params nHeight qc = qc.quorumHash
  null : qc.isNull env.scheme = true -> qc.verifyNull env = true
  notMined : qc.isNull env.scheme = false -> state.hasRecord qc.llmqType qc.quorumHash = false
  phase : qc.isNull env.scheme = false -> isMiningPhase params nHeight = true
  verified : qc.isNull env.scheme = false -> qc.verify env qc.quorumHash fBLSChecks = true

def acceptedOps (nHeight : Nat) (blockHash : Uint256) (fJustCheck : Bool) (qc : CFinalCommitment) :
    List EvoOp :=
  if qc.isNull env.scheme || fJustCheck then [] else storeOps chain nHeight blockHash qc

variable {env} {chain}

theorem type_of_getLLMQParams {llmqType : LLMQType} {params : LLMQParams}
    (found : env.getLLMQParams llmqType = some params) : params.type = llmqType := by
  have same : (params.type == llmqType) = true :=
    @List.find?_some _ (fun params : LLMQParams => params.type == llmqType) _ _ found
  exact eq_of_beq same

/-- What `ProcessCommitment` ends with: a coherent cache and, if it returns true, an accepted
commitment with its records. -/
def CommitmentPost (env : LlmqEnv) (chain : ChainView) (nHeight : Nat) (blockHash : Uint256)
    (fJustCheck fBLSChecks : Bool) (qc : CFinalCommitment) (state : ProcessorState)
    (result : Except ProcessorFailure Unit) (now : ProcessorState) : Prop :=
  now.Coherent /\ (result = .ok () ->
    (∃ params, CommitmentAccepted env chain nHeight fBLSChecks qc state params) /\
      now.evoDb = state.evoDb.apply (acceptedOps env chain nHeight blockHash fJustCheck qc))

section

variable {nHeight : Nat} {blockHash : Uint256} {fJustCheck fBLSChecks : Bool}
  {qc : CFinalCommitment} {state : ProcessorState}

theorem meets_failure {now : ProcessorState} (coherent : now.Coherent)
    (failure : ProcessorFailure) :
    Meets Rely (CommitmentPost env chain nHeight blockHash fJustCheck fBLSChecks qc state)
      (.done (.error failure)) now := by
  intro last still
  exact ⟨still.coherent coherent, nofun⟩

theorem meets_processMined {params : LLMQParams} (coherent : state.Coherent)
    (found : env.getLLMQParams qc.llmqType = some params)
    (known : (expectedQuorumHash chain params nHeight qc).isNull = false)
    (named : expectedQuorumHash chain params nHeight qc = qc.quorumHash)
    (proper : qc.isNull env.scheme = false) :
    Meets Rely (CommitmentPost env chain nHeight blockHash fJustCheck fBLSChecks qc state)
      (processMined env chain params nHeight blockHash fJustCheck fBLSChecks qc qc.quorumHash) state := by
  have sameType := type_of_getLLMQParams found
  apply bind Rely.refl
  refine (meets_hasMinedCommitment (coherent _ _)).mono ?_
  intro mined now answered
  rw [sameType] at answered
  rcases answered with ⟨answer, moved⟩
  have coherentNow : now.Coherent := moved.coherent coherent
  split
  · exact meets_failure coherentNow _
  next notMined =>
  split
  · exact meets_failure coherentNow _
  next phase =>
  split
  · exact meets_failure coherentNow _
  next verified =>
  rw [Bool.not_eq_true] at notMined
  rw [Bool.not_eq_true, Bool.not_eq_false'] at phase verified
  have accepted : CommitmentAccepted env chain nHeight fBLSChecks qc state params :=
    { params_eq := found, known, hash_eq := named,
      null := fun null => absurd (null.symm.trans proper) (by simp),
      notMined := fun _ => answer.symm.trans notMined,
      phase := fun _ => phase,
      verified := fun _ => verified }
  split
  · next justCheck =>
    intro last still
    refine ⟨still.coherent coherentNow, fun _ => ⟨⟨params, accepted⟩, ?_⟩⟩
    rw [still.evoDb, moved.evoDb, acceptedOps, justCheck, Bool.or_true, if_pos rfl, apply_nil]
  · next real =>
    rw [Bool.not_eq_true] at real
    refine (meets_storeCommitment coherentNow).mono ?_
    intro result last stored
    refine ⟨stored.2.2, fun _ => ⟨⟨params, accepted⟩, ?_⟩⟩
    rw [stored.2.1, moved.evoDb, acceptedOps, proper, real]
    rfl

theorem meets_processCommitment (coherent : state.Coherent) :
    Meets Rely (CommitmentPost env chain nHeight blockHash fJustCheck fBLSChecks qc state)
      (processCommitment env chain nHeight blockHash fJustCheck fBLSChecks qc) state := by
  unfold processCommitment
  split
  · exact meets_failure coherent _
  next params found =>
  dsimp only
  split
  · exact meets_failure coherent _
  next known =>
  split
  · exact meets_failure coherent _
  next named =>
  rw [Bool.not_eq_true] at known
  rw [not_ne_iff] at named
  split
  · next null =>
    split
    · exact meets_failure coherent _
    next verified =>
    rw [Bool.not_eq_true, Bool.not_eq_false'] at verified
    intro now moved
    refine ⟨moved.coherent coherent, fun _ => ⟨⟨params, ?_⟩, ?_⟩⟩
    · exact
        { params_eq := found, known, hash_eq := named,
          null := fun _ => verified,
          notMined := fun proper => absurd (null.symm.trans proper) (by simp),
          phase := fun proper => absurd (null.symm.trans proper) (by simp),
          verified := fun proper => absurd (null.symm.trans proper) (by simp) }
    · rw [moved.evoDb, acceptedOps, null, Bool.true_or, if_pos rfl, apply_nil]
  · next proper =>
    rw [Bool.not_eq_true] at proper
    rw [named]
    exact meets_processMined coherent found known named proper

end

theorem emplaceCommitment_perm (qc : CFinalCommitment) (ret : List CFinalCommitment) :
    (emplaceCommitment qc ret).Perm (qc :: ret) := by
  induction ret with
  | nil => exact List.Perm.refl _
  | cons other rest ih =>
    unfold emplaceCommitment
    split
    · exact List.Perm.refl _
    · exact (ih.cons other).trans (List.Perm.swap qc other rest)

def blockCommitments (env : LlmqEnv) (vtx : List CTransaction) : List CFinalCommitment :=
  vtx.filterMap fun tx => if tx.nType = .quorumCommitment then readCommitment env tx else none

variable {vtx : List CTransaction}

theorem collectCommitments_spec {ret found : List CFinalCommitment} :
    (ret.map llmqType).Nodup -> collectCommitments env vtx ret = .ok found ->
      found.Perm (ret ++ blockCommitments env vtx) /\ (found.map llmqType).Nodup := by
  induction vtx generalizing ret with
  | nil =>
    intro nodup collected
    cases collected
    exact ⟨by simp [blockCommitments], nodup⟩
  | cons tx rest ih =>
    intro nodup collected
    rw [collectCommitments] at collected
    split at collected
    · next typed =>
      split at collected
      · cases collected
      next qc read =>
      split at collected
      · cases collected
      next single =>
      have listed : blockCommitments env (tx :: rest) = qc :: blockCommitments env rest := by
        simp [blockCommitments, typed, read]
      have placed := emplaceCommitment_perm qc ret
      have distinct : ((emplaceCommitment qc ret).map llmqType).Nodup := by
        rw [(placed.map llmqType).nodup_iff, map_cons, nodup_cons]
        refine ⟨fun member => ?_, nodup⟩
        rcases mem_map.mp member with ⟨other, present, same⟩
        exact single (any_eq_true.mpr ⟨other, present, beq_iff_eq.mpr same⟩)
      rcases ih distinct collected with ⟨perm, foundDistinct⟩
      rw [listed]
      exact ⟨perm.trans ((placed.append_right _).trans perm_middle.symm), foundDistinct⟩
    · next ordinary =>
      have listed : blockCommitments env (tx :: rest) = blockCommitments env rest := by
        simp [blockCommitments, ordinary]
      rw [listed]
      exact ih nodup collected

variable {qc : CFinalCommitment} {qcs : List CFinalCommitment} {nHeight : Nat}

/-- What is found in a block are its commitments, at most one for a type. -/
theorem getCommitmentsFromBlock_spec (found : getCommitmentsFromBlock env vtx nHeight = .ok qcs) :
    qcs.Perm (blockCommitments env vtx) /\ (qcs.map llmqType).Nodup := by
  unfold getCommitmentsFromBlock at found
  split at found
  · cases found
  next _ collected =>
  split at found
  · cases found
  · cases found
    exact @collectCommitments_spec env vtx [] _ nodup_nil collected

variable {state : ProcessorState}

/-- A result that is not an error goes on from where the first program left. -/
theorem meets_andThen {first second : ProcessorMethod}
    {post : Except ProcessorFailure Unit -> ProcessorState -> Prop}
    (begins : Meets Rely (fun result now =>
        match result with
        | .error failure => ∀ later, Rely now later -> post (.error failure) later
        | .ok () => Meets Rely post second now) first state) :
    Meets Rely post (andThen first second) state := by
  apply bind Rely.refl
  refine begins.mono ?_
  intro result now ends
  cases result <;> exact ends

theorem meets_writeBestBlockUpgrade {hash : Uint256} (coherent : state.Coherent) : Meets Rely
      (fun result now => result = .ok () /\ now.Coherent /\
        now.evoDb = state.evoDb.apply [.write .bestBlockUpgrade (.hash hash)])
      (writeBestBlockUpgrade hash) state := by
  apply bind Rely.refl
  apply meets_writeEvo
  intro now moved later further last still
  refine ⟨rfl, ?_, ?_⟩
  · apply (further.trans still).coherent
    intro llmqType quorumHash
    refine answers_apply ?_ (moved.coherent coherent llmqType quorumHash)
    intro otherType otherHash same
    cases same
  · rw [still.evoDb, further.evoDb, apply, moved.evoDb]

/-- The first loop of `ProcessBlock`: every enabled type has a commitment in the block exactly if
one is required. -/
theorem meets_checkRequired {enabled : List LLMQParams} (coherent : state.Coherent) : Meets Rely
      (fun result now => Rely state now /\ (result = .ok () -> ∀ params ∈ enabled,
        (qcs.any fun qc => qc.llmqType == params.type) = requiredNow params chain nHeight state))
      (tryEach (checkRequired chain qcs nHeight) enabled) state := by
  -- The invariant: what has been checked so far was found as required.
  refine meets_tryEach (fun checked now => Rely state now /\ ∀ params ∈ checked,
    (qcs.any fun qc => qc.llmqType == params.type) = requiredNow params chain nHeight state) Rely.refl
    (fun _ _ _ holds moved => ⟨holds.1.trans moved, holds.2⟩) ?_
    (fun _ holds => ⟨holds.1, fun _ => holds.2⟩) ⟨Rely.refl state, by simp⟩
  rintro checked params _ now _ ⟨moved, right⟩
  apply bind Rely.refl
  refine (meets_isCommitmentRequired (moved.coherent coherent)).mono ?_
  intro required later answered
  have same : requiredNow params chain nHeight now = requiredNow params chain nHeight state := by
    unfold requiredNow
    dsimp only
    rw [moved.hasRecord]
  have reached : Rely state later := moved.trans answered.2
  rw [answered.1, same]
  split
  · intro last still final further
    exact ⟨(reached.trans still).trans further, nofun⟩
  next allowed =>
  split
  · intro last still final further
    exact ⟨(reached.trans still).trans further, nofun⟩
  next present =>
  intro last still
  refine ⟨reached.trans still, fun other member => ?_⟩
  rcases mem_append.mp member with before | single
  · exact right other before
  rw [mem_singleton.mp single]
  cases has : qcs.any fun qc => qc.llmqType == params.type with
  | true =>
    rw [has, Bool.true_and, Bool.not_eq_true, Bool.not_eq_false'] at allowed
    exact allowed.symm
  | false =>
    rw [has, Bool.not_false, Bool.true_and, Bool.not_eq_true] at present
    exact present.symm

def blockOps (env : LlmqEnv) (chain : ChainView) (nHeight : Nat) (blockHash : Uint256)
    (fJustCheck : Bool) (qcs : List CFinalCommitment) : List EvoOp :=
  qcs.flatMap (acceptedOps env chain nHeight blockHash fJustCheck)

variable {fJustCheck : Bool} {blockHash : Uint256}

/-- What it takes for a block to be accepted after activation, according to the records.  It does
not mention the cache, which only saves reads of the database. -/
structure BlockAccepted (env : LlmqEnv) (chain : ChainView) (vtx : List CTransaction)
    (pindex : BlockPosition) (fBLSChecks : Bool) (state : ProcessorState)
    (qcs : List CFinalCommitment) : Prop where
  active : env.DIP0003Height <= pindex.nHeight
  commitments : getCommitmentsFromBlock env vtx pindex.nHeight = .ok qcs
  required : chain.hashes ≠ [] -> ∀ params,
    params ∈ env.getEnabledQuorumParams (pindex.pprev.map hash) ->
      (qcs.any fun qc => qc.llmqType == params.type) = requiredNow params chain pindex.nHeight state
  each : ∀ qc ∈ qcs,
    ∃ params, CommitmentAccepted env chain pindex.nHeight fBLSChecks qc state params

theorem meets_processCommitments {fBLSChecks : Bool} (coherent : state.Coherent)
    (nodup : (qcs.map llmqType).Nodup) :
    Meets Rely (fun result now => now.Coherent /\ (result = .ok () ->
        (∀ qc ∈ qcs, ∃ params, CommitmentAccepted env chain nHeight fBLSChecks qc state params) /\
        now.evoDb = state.evoDb.apply (blockOps env chain nHeight blockHash fJustCheck qcs)))
      (tryEach (processCommitment env chain nHeight blockHash fJustCheck fBLSChecks) qcs) state := by
  -- The invariant: the commitments so far were accepted, and their records are what was written.
  refine meets_tryEach (fun accepted now => now.Coherent /\
    (∀ qc ∈ accepted, ∃ params, CommitmentAccepted env chain nHeight fBLSChecks qc state params) /\
    now.evoDb = state.evoDb.apply (blockOps env chain nHeight blockHash fJustCheck accepted)) Rely.refl
    (fun _ _ _ holds moved => ⟨moved.coherent holds.1, holds.2.1, moved.evoDb.trans holds.2.2⟩) ?_
    (fun _ holds => ⟨holds.1, fun _ => holds.2⟩)
    ⟨coherent, by simp, (apply_nil state.evoDb).symm⟩
  rintro accepted qc _ now whole ⟨coherentNow, each, written⟩
  have others : ∀ other ∈ accepted, other.llmqType ≠ qc.llmqType := by
    intro other member same
    rw [whole, map_append, nodup_append] at nodup
    exact nodup.2.2 other.llmqType (mem_map_of_mem member) qc.llmqType (mem_map_of_mem (.head _)) same
  refine (meets_processCommitment coherentNow).mono ?_
  intro result later ends
  cases result with
  | error _ => exact fun last still => ⟨still.coherent ends.1, nofun⟩
  | ok _ =>
    rcases ends.2 rfl with ⟨⟨params, acceptedNow⟩, writtenNow⟩
    refine ⟨ends.1, ?_, ?_⟩
    · intro other member
      rcases mem_append.mp member with before | single
      · exact each other before
      rw [mem_singleton.mp single]
      refine ⟨params, { acceptedNow with notMined := ?_ }⟩
      intro proper
      rw [<- acceptedNow.notMined proper, hasRecord, hasRecord, written]
      -- The operations so far are for commitments of other types.
      refine congrArg _ (read_apply_of_untouched _ fun op member same => ?_).symm
      rcases mem_flatMap.mp member with ⟨qc, present, within⟩
      unfold acceptedOps at within
      split at within
      · cases within
      rcases mem_cons.mp within with mined | height
      · rw [mined] at same
        exact others qc present (minedKey_inj same).1
      · rw [mem_singleton.mp height] at same
        exact inversedHeightKey_ne _ _ _ _ same
    · rw [writtenNow, written, apply_append, blockOps, blockOps, flatMap_append, flatMap_singleton]

/-- What `ProcessBlock` does: it leaves a coherent cache and, if it returns true, it has accepted
the block and written its records. -/
theorem meets_processBlock {pindex : BlockPosition} {fBLSChecks : Bool}
    (coherent : state.Coherent) :
    Meets Rely (fun result now => now.Coherent /\ (result = .ok () -> (pindex.nHeight < env.DIP0003Height /\
          now.evoDb = state.evoDb.apply [.write .bestBlockUpgrade (.hash pindex.hash)]) \/
        ∃ qcs, BlockAccepted env chain vtx pindex fBLSChecks state qcs /\
          now.evoDb = state.evoDb.apply (blockOps env chain pindex.nHeight pindex.hash fJustCheck qcs ++
            [.write .bestBlockUpgrade (.hash pindex.hash)])))
      (processBlock env chain vtx pindex fJustCheck fBLSChecks) state := by
  unfold processBlock
  split
  · next premature =>
    refine (meets_writeBestBlockUpgrade coherent).mono ?_
    intro result now ends
    exact ⟨ends.2.1, fun _ => .inl ⟨premature, ends.2.2⟩⟩
  · next active =>
    rw [not_lt] at active
    split
    · intro now moved
      exact ⟨moved.coherent coherent, nofun⟩
    next qcs found =>
    have checked : Meets Rely
      (fun result now => Rely state now /\ (result = .ok () -> chain.hashes ≠ [] -> ∀ params,
        params ∈ env.getEnabledQuorumParams (pindex.pprev.map hash) ->
          (qcs.any fun qc => qc.llmqType == params.type) =
            requiredNow params chain pindex.nHeight state))
      (if chain.hashes.isEmpty then .done (.ok ())
        else tryEach (checkRequired chain qcs pindex.nHeight)
          (env.getEnabledQuorumParams (pindex.pprev.map hash))) state := by
      split
      · next replay =>
        intro now moved
        exact ⟨moved, fun _ present => absurd (isEmpty_iff.mp replay) present⟩
      · refine (meets_checkRequired coherent).mono ?_
        intro result now ends
        exact ⟨ends.1, fun right _ => ends.2 right⟩
    apply meets_andThen
    refine checked.mono ?_
    intro result now ends
    cases result with
    | error failure =>
      intro later further
      exact ⟨(ends.1.trans further).coherent coherent, nofun⟩
    | ok value =>
      rcases ends with ⟨moved, required⟩
      apply meets_andThen
      refine (meets_processCommitments (moved.coherent coherent)
        (getCommitmentsFromBlock_spec found).2).mono ?_
      intro result later processed
      cases result with
      | error failure =>
        intro last still
        exact ⟨still.coherent processed.1, nofun⟩
      | ok value =>
        rcases processed with ⟨coherentLater, each⟩
        rcases each rfl with ⟨accepted, written⟩
        refine (meets_writeBestBlockUpgrade coherentLater).mono ?_
        intro result last ends
        refine ⟨ends.2.1, fun _ => .inr ⟨qcs, ?_, ?_⟩⟩
        · refine ⟨active, found, required rfl, ?_⟩
          intro qc member
          rcases accepted qc member with ⟨params, acceptedNow⟩
          refine ⟨params, { acceptedNow with notMined := ?_ }⟩
          intro proper
          rw [<- moved.hasRecord]
          exact acceptedNow.notMined proper
        · rw [ends.2.2, written, moved.evoDb, apply_append]

def undoOps (env : LlmqEnv) (nHeight : Nat) (qc : CFinalCommitment) : List EvoOp :=
  if qc.isNull env.scheme then []
  else [.erase (minedKey qc.llmqType qc.quorumHash), .erase (inversedHeightKey qc.llmqType nHeight)]

theorem rely_addMineableCommitment (env : LlmqEnv) (qc : CFinalCommitment)
    (state : ProcessorState) :
    Rely state (state.addMineableCommitment env qc).2 := by
  have untouched : (state.addMineableCommitment env qc).2.evoDb = state.evoDb /\
    (state.addMineableCommitment env qc).2.mapHasMinedCommitmentCache =
      state.mapHasMinedCommitmentCache := by
    unfold addMineableCommitment
    dsimp only
    split
    · exact ⟨rfl, rfl⟩
    · split
      · exact ⟨rfl, rfl⟩
      · split <;> exact ⟨rfl, rfl⟩
  refine ⟨untouched.1, ?_⟩
  intro llmqType quorumHash answers fExists cached
  rw [untouched.2] at cached
  rw [hasRecord, untouched.1]
  exact answers fExists cached

theorem meets_undoCommitment (coherent : state.Coherent) : Meets Rely
      (fun _ now => now.Coherent /\ now.evoDb = state.evoDb.apply (undoOps env nHeight qc))
      (undoCommitment env nHeight qc) state := by
  unfold undoCommitment undoOps
  split
  · intro now moved
    rw [apply_nil]
    exact ⟨moved.coherent coherent, moved.evoDb⟩
  refine meets_records coherent rfl rfl fun written except erased => ?_
  apply bind Rely.refl
  apply meets_atomically
  intro dropping toDropping dropped quiet
  apply meets_atomically
  intro adding toAdding last still
  have added := rely_addMineableCommitment env qc adding
  have onlyAdded := ((quiet.trans toAdding).trans added).trans still
  refine ⟨onlyAdded.coherent (coherent_cacheErase (toDropping.coherentExcept except)), ?_⟩
  rw [onlyAdded.evoDb]
  exact toDropping.evoDb.trans erased

/-- What `UndoBlock` does: it leaves a coherent cache and, if it returns true, it has erased the
records of the commitments of the block. -/
theorem meets_undoBlock {pindex : BlockPosition} (coherent : state.Coherent) : Meets Rely
      (fun result now => now.Coherent /\ (result = .ok () ->
        ∃ qcs prev, getCommitmentsFromBlock env vtx pindex.nHeight = .ok qcs /\ pindex.pprev = some prev /\
          now.evoDb = state.evoDb.apply (qcs.flatMap (undoOps env pindex.nHeight) ++
            [.write .bestBlockUpgrade (.hash prev.hash)]))) (undoBlock env vtx pindex) state := by
  unfold undoBlock
  split
  · intro now moved
    exact ⟨moved.coherent coherent, nofun⟩
  next qcs found =>
  apply meets_andThen
  -- The invariant: the records of the commitments so far were erased.
  refine meets_tryEach (fun undone now => now.Coherent /\
    now.evoDb = state.evoDb.apply (undone.flatMap (undoOps env pindex.nHeight))) Rely.refl
    (fun _ _ _ holds moved => ⟨moved.coherent holds.1, moved.evoDb.trans holds.2⟩) ?_ ?_
    ⟨coherent, (apply_nil state.evoDb).symm⟩
  · rintro undone _ _ now _ ⟨coherentNow, written⟩
    refine (meets_undoCommitment coherentNow).mono ?_
    intro result later ends
    cases result with
    | error _ =>
      exact fun last still final further => ⟨(still.trans further).coherent ends.1, nofun⟩
    | ok _ =>
      refine ⟨ends.1, ?_⟩
      rw [ends.2, written, apply_append, flatMap_append, flatMap_singleton]
  · rintro now ⟨coherentNow, written⟩
    cases pindex.pprev with
    | none => exact fun later further => ⟨further.coherent coherentNow, nofun⟩
    | some prev =>
      refine (meets_writeBestBlockUpgrade coherentNow).mono ?_
      intro result last ends
      refine ⟨ends.2.1, fun _ => ⟨qcs, prev, found, rfl, ?_⟩⟩
      rw [ends.2.2, written, apply_append]

end StakeCubeCoin.Llmq
