import StakeCubeCoin.Llmq.MinedCache

namespace StakeCubeCoin.Llmq

open Primitives Library Evo Validation ProcessorState List Option Nat

/-!
# Which blocks contain commitments

The rules for commitments over a whole chain.  In every interval of a type of quorum, the
blocks of the mining window contain exactly one commitment each, until one of them is not
null, and no other block contains one.  The rules are first stated for a list of blocks, with
what it takes to extend the list by a block and to shorten it, and are then carried along the
runs in which blocks are connected and disconnected.
-/

/-- A block of the active chain. -/
structure ChainBlock where
  hash : Uint256
  vtx : List CTransaction
  deriving DecidableEq

section

variable (env : LlmqEnv)

def commitmentsOfType (llmqType : LLMQType) (vtx : List CTransaction) : List CFinalCommitment :=
  (blockCommitments env vtx).filter fun qc => qc.llmqType == llmqType

/-- Blocks at this height are processed: it is not that of the genesis block, and the rules are
active. -/
def Counts (nHeight : Nat) : Prop :=
  0 < nHeight /\ env.DIP0003Height <= nHeight

/-- The block contains a commitment of the type that is not null. -/
def Mines (llmqType : LLMQType) (block : ChainBlock) : Prop :=
  ∃ qc ∈ blockCommitments env block.vtx, qc.llmqType = llmqType /\ qc.isNull env.scheme = false

/-- The height lies in the mining window, and no earlier block of the interval contains a
commitment that is not null. -/
def Due (params : LLMQParams) (blocks : List ChainBlock) (nHeight : Nat) : Prop :=
  isMiningPhase params nHeight = true /\
    ∀ earlier block, nHeight - nHeight % params.dkgInterval <= earlier -> earlier < nHeight ->
      Counts env earlier -> blocks[earlier]? = some block -> Not (Mines env params.type block)

/-- A commitment for the quorum was mined, and is not null. -/
def MinedIn (blocks : List ChainBlock) (llmqType : LLMQType) (quorumHash : Uint256) : Prop :=
  ∃ nHeight block qc, blocks[nHeight]? = some block /\
    Counts env nHeight /\ qc ∈ blockCommitments env block.vtx /\ qc.llmqType = llmqType /\
    qc.quorumHash = quorumHash /\ qc.isNull env.scheme = false

/-- The rules for a chain of blocks, genesis first. -/
structure MiningRules (blocks : List ChainBlock) : Prop where
  nodup : (blocks.map ChainBlock.hash).Nodup
  nonzero : ∀ block ∈ blocks, block.hash ≠ 0
  /-- A commitment names the first block of its interval. -/
  named : ∀ nHeight block qc, blocks[nHeight]? = some block -> Counts env nHeight ->
    qc ∈ blockCommitments env block.vtx -> ∃ params, ∃ base,
      env.getLLMQParams qc.llmqType = some params /\
      blocks[nHeight - nHeight % params.dkgInterval]? = some base /\ qc.quorumHash = base.hash
  /-- While the type is enabled, a block contains exactly one commitment if one is due, and none
  otherwise. -/
  required : ∀ params ∈ env.llmqs, ∀ nHeight block prev,
    blocks[nHeight]? = some block -> Counts env nHeight -> blocks[nHeight - 1]? = some prev ->
    env.isQuorumTypeEnabled params.type (some prev.hash) = true ->
      (Due env params blocks nHeight -> ∃ base, ∃ qc,
        blocks[nHeight - nHeight % params.dkgInterval]? = some base /\
        commitmentsOfType env params.type block.vtx = [qc] /\ qc.quorumHash = base.hash) /\
      (Not (Due env params blocks nHeight) -> commitmentsOfType env params.type block.vtx = [])
  /-- At most one commitment for a quorum is not null. -/
  single : ∀ nHeight block qc otherHeight otherBlock otherQc,
    blocks[nHeight]? = some block -> Counts env nHeight -> qc ∈ blockCommitments env block.vtx ->
    blocks[otherHeight]? = some otherBlock -> Counts env otherHeight ->
    otherQc ∈ blockCommitments env otherBlock.vtx ->
    qc.isNull env.scheme = false -> otherQc.isNull env.scheme = false ->
    qc.llmqType = otherQc.llmqType -> qc.quorumHash = otherQc.quorumHash ->
      nHeight = otherHeight /\ qc = otherQc

end

/-! ## Commitments of a block -/

section

variable {env : LlmqEnv} {vtx : List CTransaction}

/-- With at most one commitment for each type, there is none of a type or exactly one. -/
theorem commitmentsOfType_cases {nHeight : Nat} {qcs : List CFinalCommitment}
    (found : getCommitmentsFromBlock env vtx nHeight = .ok qcs) (llmqType : LLMQType) :
    ((qcs.any fun qc => qc.llmqType == llmqType) = false /\ commitmentsOfType env llmqType vtx = []) \/
      ∃ qc ∈ qcs, qc.llmqType = llmqType /\ (qcs.any fun qc => qc.llmqType == llmqType) = true /\
        commitmentsOfType env llmqType vtx = [qc] := by
  have same := (getCommitmentsFromBlock_spec found).1.filter fun qc => qc.llmqType == llmqType
  cases has : qcs.any fun qc => qc.llmqType == llmqType with
  | false =>
    refine .inl ⟨rfl, ?_⟩
    have empty : qcs.filter (fun qc => qc.llmqType == llmqType) = [] := by
      rw [filter_eq_nil_iff]
      intro qc member
      exact any_eq_false.mp has qc member
    rw [empty] at same
    exact same.symm.eq_nil
  | true =>
    rcases any_eq_true.mp has with ⟨qc, member, typed⟩
    have one : qcs.filter (fun qc => qc.llmqType == llmqType) = [qc] := by
      have nodup : (qcs.filter fun qc => qc.llmqType == llmqType).Nodup :=
        (List.Nodup.of_map _ (getCommitmentsFromBlock_spec found).2).filter _
      have all : ∀ other ∈ qcs.filter (fun qc => qc.llmqType == llmqType), other = qc := by
        intro other listed
        rcases mem_filter.mp listed with ⟨present, otherTyped⟩
        exact inj_on_of_nodup_map (getCommitmentsFromBlock_spec found).2 present member
          ((eq_of_beq otherTyped).trans (eq_of_beq typed).symm)
      by_contra different
      rcases (nodup.ne_singleton_iff qc).mp different with empty | ⟨other, listed, unequal⟩
      · exact ne_nil_of_mem (mem_filter.mpr ⟨member, typed⟩) empty
      · exact unequal (all other listed)
    rw [one] at same
    exact .inr ⟨qc, member, eq_of_beq typed, rfl, (singleton_perm.mp same).symm⟩

end

/-! ## One more block, and one less -/

section

variable {env : LlmqEnv} {blocks : List ChainBlock}

theorem getLLMQParams_of_mem {params : LLMQParams} (member : params ∈ env.llmqs) :
    env.getLLMQParams params.type = some params := by
  unfold LlmqEnv.getLLMQParams
  cases found : env.llmqs.find? fun other => other.type == params.type with
  | none => exact absurd (beq_self_eq_true params.type) (find?_eq_none.mp found params member)
  | some other =>
    have typed : (other.type == params.type) = true :=
      @List.find?_some _ (fun other : LLMQParams => other.type == params.type) _ _ found
    rw [inj_on_of_nodup_map env.distinct (mem_of_find?_eq_some found) member (eq_of_beq typed)]

variable {nHeight : Nat}

theorem interval_start_eq {interval earlier : Nat} (after : nHeight - nHeight % interval <= earlier)
    (before : earlier <= nHeight) :
    earlier - earlier % interval = nHeight - nHeight % interval := by
  have split := div_add_mod nHeight interval
  have start : nHeight - nHeight % interval = interval * (nHeight / interval) := by omega
  have splitEarlier := div_add_mod earlier interval
  have startEarlier : earlier - earlier % interval = interval * (earlier / interval) := by omega
  rw [start] at after
  rcases Nat.eq_zero_or_pos interval with zero | positive
  · subst zero
    rw [Nat.mod_zero, Nat.mod_zero, Nat.sub_self, Nat.sub_self]
  have lower : nHeight / interval <= earlier / interval := by
    rw [Nat.le_div_iff_mul_le positive, Nat.mul_comm]
    exact after
  have upper : earlier / interval <= nHeight / interval := Nat.div_le_div_right before
  rw [start, startEarlier, le_antisymm upper lower]

/-- Whether a commitment is due does not depend on later blocks. -/
theorem due_append {params : LLMQParams} (more : List ChainBlock)
    (within : nHeight <= blocks.length) :
    Due env params (blocks ++ more) nHeight <-> Due env params blocks nHeight := by
  refine and_congr_right fun _ => forall₅_congr fun earlier block _ before _ => ?_
  rw [getElem?_append_left (lt_of_lt_of_le before within)]

theorem getElem?_append_of_some {block : ChainBlock} (more : List ChainBlock)
    (found : blocks[nHeight]? = some block) : (blocks ++ more)[nHeight]? = some block := by
  rw [List.getElem?_append_left (List.getElem?_eq_some_iff.mp found).1]
  exact found

theorem MiningRules.shorten {last : ChainBlock} (rules : MiningRules env (blocks ++ [last])) :
    MiningRules env blocks where
  nodup := by
    have whole := rules.nodup
    rw [map_append] at whole
    exact whole.of_append_left
  nonzero := fun block member => rules.nonzero block (mem_append_left _ member)
  named := by
    intro nHeight block qc found counts member
    have within := (List.getElem?_eq_some_iff.mp found).1
    rcases rules.named nHeight block qc (getElem?_append_of_some _ found) counts member with
      ⟨params, base, parameters, start, same⟩
    rw [List.getElem?_append_left (by omega)] at start
    exact ⟨params, base, parameters, start, same⟩
  required := by
    intro params member nHeight block prev found counts previous enabled
    have within := (List.getElem?_eq_some_iff.mp found).1
    rcases rules.required params member nHeight block prev (getElem?_append_of_some _ found) counts
      (getElem?_append_of_some _ previous) enabled with ⟨present, absent⟩
    rw [due_append [last] (le_of_lt within)] at present absent
    refine ⟨?_, absent⟩
    intro due
    rcases present due with ⟨base, qc, start, one, same⟩
    rw [getElem?_append_left (by omega)] at start
    exact ⟨base, qc, start, one, same⟩
  single := by
    intro nHeight block qc otherHeight otherBlock otherQc found counts member otherFound otherCounts
      otherMember
    exact rules.single nHeight block qc otherHeight otherBlock otherQc (getElem?_append_of_some _ found)
      counts member (getElem?_append_of_some _ otherFound) otherCounts otherMember

/-- The database holds a record for exactly those quorums that were mined.  The rules speak of the
chain alone, and this is what connects the block processor with them. -/
def Recorded (env : LlmqEnv) (blocks : List ChainBlock) (state : ProcessorState) : Prop :=
  ∀ llmqType quorumHash, state.hasRecord llmqType quorumHash = true <->
    MinedIn env blocks llmqType quorumHash

/-- The call is for a block on top of the chain. -/
@[mk_iff]
structure OnTop (env : LlmqEnv) (blocks : List ChainBlock) (chain : ChainView)
    (pindex : BlockPosition) : Prop where
  hashes : chain.hashes = blocks.map ChainBlock.hash
  nonempty : blocks ≠ []
  nHeight : pindex.nHeight = blocks.length
  pprev :
    pindex.pprev.map Validation.PrevPosition.hash = (blocks[blocks.length - 1]?).map ChainBlock.hash
  indexed : chain.lookupBlockIndex pindex.hash = some pindex.nHeight
  nonzero : pindex.hash ≠ 0

section

variable {chain : ChainView} {pindex : BlockPosition}

section

variable (onTop : OnTop env blocks chain pindex)

include onTop

theorem OnTop.new : pindex.hash ∉ blocks.map ChainBlock.hash := by
  intro member
  rcases List.getElem?_of_mem member with ⟨nHeight, found⟩
  rw [<- onTop.hashes] at found
  have same := Option.some.inj ((chain.indexed nHeight pindex.hash found).symm.trans onTop.indexed)
  rw [onTop.hashes] at found
  have within := (List.getElem?_eq_some_iff.mp found).1
  rw [length_map] at within
  rw [onTop.nHeight] at same
  omega

theorem OnTop.hashes_ne : chain.hashes ≠ [] := by
  rw [onTop.hashes]
  simp [onTop.nonempty]

theorem OnTop.length_pos : 0 < blocks.length :=
  length_pos_iff.mpr onTop.nonempty

/-- The hash of the quorum is unknown for the first block of an interval, and otherwise that of
the first block. -/
theorem OnTop.quorumBlockHash (rules : MiningRules env blocks) (params : LLMQParams) :
    (pindex.nHeight % params.dkgInterval = 0 /\
      (getQuorumBlockHash params chain pindex.nHeight).isNull = true) \/
      (0 < pindex.nHeight % params.dkgInterval /\ ∃ base,
        blocks[pindex.nHeight - pindex.nHeight % params.dkgInterval]? = some base /\
        getQuorumBlockHash params chain pindex.nHeight = base.hash /\
        (getQuorumBlockHash params chain pindex.nHeight).isNull = false) := by
  unfold getQuorumBlockHash
  rw [onTop.hashes, getElem?_map]
  rcases Nat.eq_zero_or_pos (pindex.nHeight % params.dkgInterval) with first | later
  · refine .inl ⟨first, ?_⟩
    have beyond : blocks[pindex.nHeight - pindex.nHeight % params.dkgInterval]? = none := by
      rw [getElem?_eq_none_iff, first, onTop.nHeight]
      exact le_refl _
    rw [beyond]
    rfl
  · refine .inr ⟨later, ?_⟩
    have within : pindex.nHeight - pindex.nHeight % params.dkgInterval < blocks.length := by
      have nHeight := onTop.nHeight
      have positive := onTop.length_pos
      omega
    have found := getElem?_eq_getElem within
    rw [found]
    refine ⟨_, rfl, rfl, ?_⟩
    have nonzero := rules.nonzero _ (getElem_mem within)
    rw [map_some, Uint256.isNull, beq_eq_false_iff_ne]
    exact nonzero

end

variable {params : LLMQParams}

/-- There is a record for the quorum of an interval exactly if a block of the interval mines a
commitment that is not null. -/
theorem minedIn_start_iff (rules : MiningRules env blocks) (member : params ∈ env.llmqs)
    {base : ChainBlock} {nHeight : Nat} (top : nHeight = blocks.length)
    (start : blocks[nHeight - nHeight % params.dkgInterval]? = some base) :
    MinedIn env blocks params.type base.hash <-> ∃ earlier, ∃ block,
        nHeight - nHeight % params.dkgInterval <= earlier /\ earlier < nHeight /\
        Counts env earlier /\ blocks[earlier]? = some block /\ Mines env params.type block := by
  have parameters := getLLMQParams_of_mem member
  constructor
  · rintro ⟨earlier, block, qc, found, counts, present, typed, hash, proper⟩
    have within := (List.getElem?_eq_some_iff.mp found).1
    rcases rules.named earlier block qc found counts present with ⟨other, otherBase, known, begins, named⟩
    rw [typed, parameters] at known
    cases known
    have sameStart : earlier - earlier % params.dkgInterval =
      nHeight - nHeight % params.dkgInterval := by
      have first : (blocks.map ChainBlock.hash)[earlier - earlier % params.dkgInterval]? =
        some base.hash := by
        rw [getElem?_map, begins, map_some, <- named, hash]
      have second : (blocks.map ChainBlock.hash)[nHeight - nHeight % params.dkgInterval]? =
        some base.hash := by
        rw [getElem?_map, start, map_some]
      exact (List.getElem?_inj (List.getElem?_eq_some_iff.mp first).1 rules.nodup).mp
        (first.trans second.symm)
    exact ⟨earlier, block, by omega, by omega, counts, found, qc, present, typed, proper⟩
  · rintro ⟨earlier, block, after, before, counts, found, qc, present, typed, proper⟩
    rcases rules.named earlier block qc found counts present with ⟨other, otherBase, known, begins, named⟩
    rw [typed, parameters] at known
    cases known
    rw [interval_start_eq after (le_of_lt before), start] at begins
    cases begins
    exact ⟨earlier, block, qc, found, counts, present, typed, named, proper⟩

/-- A commitment is required of the next block exactly if it is due. -/
theorem OnTop.requiredNow_iff (onTop : OnTop env blocks chain pindex)
    (rules : MiningRules env blocks) {state : ProcessorState} (recorded : Recorded env blocks state)
    (member : params ∈ env.llmqs) :
    requiredNow params chain pindex.nHeight state = true <-> Due env params blocks pindex.nHeight := by
  unfold requiredNow
  dsimp only
  rcases onTop.quorumBlockHash rules params with ⟨first, unknown⟩ | ⟨_, base, start, hash, known⟩
  · rw [unknown]
    constructor
    · intro impossible
      cases impossible
    rintro ⟨phase, _⟩
    unfold isMiningPhase at phase
    dsimp only at phase
    have positive := params.start_pos
    rw [decide_eq_false (by omega), Bool.false_and] at phase
    cases phase
  · have answer := (recorded params.type base.hash).trans
      (minedIn_start_iff rules member onTop.nHeight start)
    rw [known, hash, Bool.not_false, Bool.and_eq_true, Bool.not_eq_true', <- Bool.not_eq_true, answer]
    simp only [not_exists, not_and]
    rfl

/-- An accepted commitment names the first block of the interval. -/
theorem OnTop.named (onTop : OnTop env blocks chain pindex) (rules : MiningRules env blocks)
    {state : ProcessorState} {fBLSChecks : Bool} {qc : CFinalCommitment}
    (accepted : CommitmentAccepted env chain pindex.nHeight fBLSChecks qc state params) :
    ∃ base, blocks[pindex.nHeight - pindex.nHeight % params.dkgInterval]? = some base /\
      qc.quorumHash = base.hash := by
  have expected : expectedQuorumHash chain params pindex.nHeight qc =
    getQuorumBlockHash params chain pindex.nHeight := by
    unfold expectedQuorumHash
    rw [if_neg]
    rw [List.isEmpty_iff]
    exact onTop.hashes_ne
  have known := accepted.known
  have named := accepted.hash_eq
  rw [expected] at known named
  rcases onTop.quorumBlockHash rules params with ⟨_, unknown⟩ | ⟨_, base, start, hash, _⟩
  · exact absurd (unknown.symm.trans known) (by simp)
  · exact ⟨base, start, named.symm.trans hash⟩

end

theorem getElem?_append_singleton {new block : ChainBlock}
    (found : (blocks ++ [new])[nHeight]? = some block) :
    blocks[nHeight]? = some block \/ nHeight = blocks.length /\ block = new := by
  rcases lt_trichotomy nHeight blocks.length with within | top | _
  · rw [getElem?_append_left within] at found
    exact .inl found
  · subst top
    rw [getElem?_append_right (le_refl _), Nat.sub_self] at found
    exact .inr ⟨rfl, (Option.some.inj found).symm⟩
  · have bound := (List.getElem?_eq_some_iff.mp found).1
    rw [length_append, length_singleton] at bound
    omega

/-- The commitments of an accepted block are unlike those before it. -/
theorem not_minedIn_of_accepted {chain : ChainView} {vtx : List CTransaction}
    {pindex : BlockPosition} {fBLSChecks : Bool} {state : ProcessorState}
    {qcs : List CFinalCommitment} (recorded : Recorded env blocks state)
    (accepted : BlockAccepted env chain vtx pindex fBLSChecks state qcs) {qc : CFinalCommitment}
    (member : qc ∈ blockCommitments env vtx) (proper : qc.isNull env.scheme = false) :
    Not (MinedIn env blocks qc.llmqType qc.quorumHash) := by
  intro mined
  rcases accepted.each qc ((getCommitmentsFromBlock_spec accepted.commitments).1.mem_iff.mpr member) with
    ⟨_, acceptedQc⟩
  exact absurd (((recorded _ _).mpr mined).symm.trans (acceptedQc.notMined proper)) (by simp)

/-- An accepted block extends a chain that keeps the rules. -/
theorem MiningRules.extend (rules : MiningRules env blocks) {chain : ChainView}
    {pindex : BlockPosition} (onTop : OnTop env blocks chain pindex) {state : ProcessorState}
    (recorded : Recorded env blocks state) {vtx : List CTransaction} {fBLSChecks : Bool}
    (accepted : Counts env blocks.length ->
      ∃ qcs, BlockAccepted env chain vtx pindex fBLSChecks state qcs) :
    MiningRules env (blocks ++ [⟨pindex.hash, vtx⟩]) where
  nodup := by
    rw [map_append, nodup_append]
    refine ⟨rules.nodup, by simp, ?_⟩
    intro hash member other single
    rw [map_singleton, mem_singleton] at single
    intro same
    rw [same, single] at member
    exact onTop.new member
  nonzero := by
    intro block member
    rcases mem_append.mp member with old | single
    · exact rules.nonzero block old
    · rw [mem_singleton.mp single]
      exact onTop.nonzero
  named := by
    intro nHeight block qc found counts member
    rcases getElem?_append_singleton found with old | ⟨rfl, rfl⟩
    · rcases rules.named nHeight block qc old counts member with ⟨params, base, parameters, start, same⟩
      exact ⟨params, base, parameters, getElem?_append_of_some _ start, same⟩
    rcases accepted counts with ⟨qcs, acceptedBlock⟩
    rcases acceptedBlock.each qc
      ((getCommitmentsFromBlock_spec acceptedBlock.commitments).1.mem_iff.mpr member) with
      ⟨params, acceptedQc⟩
    rcases onTop.named rules acceptedQc with ⟨base, start, same⟩
    rw [onTop.nHeight] at start
    exact ⟨params, base, acceptedQc.params_eq, getElem?_append_of_some _ start, same⟩
  required := by
    intro params member nHeight block prev found counts previous enabled
    rcases getElem?_append_singleton found with old | ⟨rfl, rfl⟩
    · have within := (List.getElem?_eq_some_iff.mp old).1
      rw [getElem?_append_left (by omega)] at previous
      rw [due_append _ (le_of_lt within)]
      rcases rules.required params member nHeight block prev old counts previous enabled with
        ⟨present, absent⟩
      refine ⟨?_, absent⟩
      intro due
      rcases present due with ⟨base, qc, start, one, same⟩
      exact ⟨base, qc, getElem?_append_of_some _ start, one, same⟩
    · rcases accepted counts with ⟨qcs, acceptedBlock⟩
      have positive := onTop.length_pos
      rw [getElem?_append_left (by omega)] at previous
      have enabledNow : params ∈
        env.getEnabledQuorumParams (pindex.pprev.map Validation.PrevPosition.hash) := by
        rw [onTop.pprev, previous]
        exact mem_filter.mpr ⟨member, enabled⟩
      have asked := acceptedBlock.required onTop.hashes_ne params enabledNow
      have due := onTop.requiredNow_iff rules recorded member
      rw [onTop.nHeight] at due
      rw [onTop.nHeight] at asked
      rw [due_append _ (le_refl _), <- due, <- asked]
      rcases commitmentsOfType_cases acceptedBlock.commitments params.type with
        ⟨absent, empty⟩ | ⟨qc, listed, typed, present, one⟩
      · rw [absent]
        exact ⟨nofun, fun _ => empty⟩
      rw [present]
      refine ⟨fun _ => ?_, fun impossible => absurd rfl impossible⟩
      rcases acceptedBlock.each qc listed with ⟨others, acceptedQc⟩
      have same : others = params := by
        have parameters := acceptedQc.params_eq
        rw [typed, getLLMQParams_of_mem member] at parameters
        exact (Option.some.inj parameters).symm
      subst same
      rcases onTop.named rules acceptedQc with ⟨base, start, hash⟩
      rw [onTop.nHeight] at start
      exact ⟨base, qc, getElem?_append_of_some _ start, one, hash⟩
  single := by
    intro nHeight block qc otherHeight otherBlock otherQc found counts member otherFound otherCounts
      otherMember proper otherProper types hashes
    rcases getElem?_append_singleton found with old | ⟨rfl, rfl⟩
    · rcases getElem?_append_singleton otherFound with otherOld | ⟨rfl, rfl⟩
      · exact rules.single nHeight block qc otherHeight otherBlock otherQc old counts
          member otherOld otherCounts otherMember proper otherProper types hashes
      · rcases accepted otherCounts with ⟨qcs, acceptedBlock⟩
        refine absurd ?_ (not_minedIn_of_accepted recorded acceptedBlock otherMember otherProper)
        exact ⟨nHeight, block, qc, old, counts, member, types, hashes, proper⟩
    · rcases accepted counts with ⟨qcs, acceptedBlock⟩
      rcases getElem?_append_singleton otherFound with otherOld | ⟨rfl, rfl⟩
      · refine absurd ?_ (not_minedIn_of_accepted recorded acceptedBlock member proper)
        exact ⟨otherHeight, otherBlock, otherQc, otherOld, otherCounts, otherMember, types.symm,
          hashes.symm, otherProper⟩
      · refine ⟨rfl, ?_⟩
        have listed := (getCommitmentsFromBlock_spec acceptedBlock.commitments).1
        exact inj_on_of_nodup_map (getCommitmentsFromBlock_spec acceptedBlock.commitments).2
          (listed.mem_iff.mpr member) (listed.mem_iff.mpr otherMember) types

end

variable {env : LlmqEnv}

/-- The block has a commitment for the quorum that is not null. -/
def MinesQuorum (env : LlmqEnv) (qcs : List CFinalCommitment) (llmqType : LLMQType)
    (quorumHash : Uint256) :
    Prop :=
  ∃ qc ∈ qcs, qc.isNull env.scheme = false /\ qc.llmqType = llmqType /\ qc.quorumHash = quorumHash

/-- Two changes for each commitment that is not null, the first of the record of its quorum,
and then the mark of the last block: the record is changed exactly for the quorums of the
commitments. -/
theorem lastOp_records {make : CFinalCommitment -> List EvoOp}
    {first second : CFinalCommitment -> EvoOp} {hash : Uint256} (qcs : List CFinalCommitment)
    (llmqType : LLMQType) (quorumHash : Uint256)
    (shape : ∀ qc, make qc = if qc.isNull env.scheme then [] else [first qc, second qc])
    (key_first : ∀ qc, (first qc).key = minedKey qc.llmqType qc.quorumHash)
    (key_second : ∀ qc, (second qc).key ≠ minedKey llmqType quorumHash) :
    (Not (MinesQuorum env qcs llmqType quorumHash) /\
      lastOp (qcs.flatMap make ++ [.write .bestBlockUpgrade (.hash hash)])
        (minedKey llmqType quorumHash) = none) \/ (MinesQuorum env qcs llmqType quorumHash /\ ∃ qc,
        lastOp (qcs.flatMap make ++ [.write .bestBlockUpgrade (.hash hash)])
          (minedKey llmqType quorumHash) = some (first qc).value) := by
  have mark :
    lastOp [(.write .bestBlockUpgrade (.hash hash) : EvoOp)] (minedKey llmqType quorumHash) =
    none := by
    rw [lastOp_eq_none_iff]
    intro op member same
    rw [mem_singleton.mp member] at same
    cases same
  rw [lastOp_append, mark, none_or]
  cases last : lastOp (qcs.flatMap make) (minedKey llmqType quorumHash) with
  | none =>
    refine .inl ⟨?_, rfl⟩
    rintro ⟨qc, member, proper, types, hashes⟩
    have listed : first qc ∈ qcs.flatMap make := by
      refine mem_flatMap.mpr ⟨qc, member, ?_⟩
      rw [shape, proper]
      exact (.head _)
    apply (lastOp_eq_none_iff _ _).mp last (first qc) listed
    rw [key_first, types, hashes]
  | some value =>
    rcases exists_of_lastOp_eq_some last with ⟨op, member, key, left⟩
    rcases mem_flatMap.mp member with ⟨qc, present, within⟩
    rw [shape] at within
    split at within
    · cases within
    next proper =>
    rw [Bool.not_eq_true] at proper
    rcases mem_cons.mp within with mined | other
    · subst mined
      rw [key_first] at key
      rcases minedKey_inj key with ⟨types, hashes⟩
      exact .inr ⟨⟨qc, present, proper, types, hashes⟩, qc, by rw [left]⟩
    · rw [mem_singleton.mp other] at key
      exact absurd key (key_second qc)

variable {qcs : List CFinalCommitment} {nHeight : Nat}

/-- After the records of a block were written, there is one for its own commitments and for those
before. -/
theorem isSome_read_blockOps (evoDb : CEvoDB) {chain : ChainView} {blockHash : Uint256}
    (llmqType : LLMQType) (quorumHash : Uint256) :
    ((evoDb.apply (blockOps env chain nHeight blockHash false qcs ++
      [.write .bestBlockUpgrade (.hash blockHash)])).read (minedKey llmqType quorumHash)).isSome = true <->
      MinesQuorum env qcs llmqType quorumHash \/ (evoDb.read (minedKey llmqType quorumHash)).isSome = true := by
  have shape : ∀ qc, acceptedOps env chain nHeight blockHash false qc =
    if qc.isNull env.scheme then []
    else [.write (minedKey qc.llmqType qc.quorumHash) (minedRecord qc blockHash),
      .write (inversedHeightKey qc.llmqType nHeight)
        (heightRecord ((chain.lookupBlockIndex qc.quorumHash).getD 0))] := by
    intro qc
    rw [acceptedOps, Bool.or_false]
    rfl
  rw [CEvoDB.read_apply, blockOps]
  rcases lastOp_records qcs llmqType quorumHash shape (fun _ => rfl)
    (fun qc => inversedHeightKey_ne qc.llmqType llmqType nHeight quorumHash) with
    ⟨never, none⟩ | ⟨mines, qc, written⟩
  · rw [none]
    exact ⟨.inr, fun either => either.resolve_left never⟩
  · rw [written]
    exact ⟨fun _ => .inl mines, fun _ => rfl⟩

theorem minedIn_append_iff {blocks : List ChainBlock} {new : ChainBlock} (llmqType : LLMQType)
    (quorumHash : Uint256) : MinedIn env (blocks ++ [new]) llmqType quorumHash <->
      (Counts env blocks.length /\ MinesQuorum env (blockCommitments env new.vtx) llmqType quorumHash) \/
        MinedIn env blocks llmqType quorumHash := by
  constructor
  · rintro ⟨nHeight, block, qc, found, counts, member, types, hashes, proper⟩
    rcases getElem?_append_singleton found with old | ⟨top, same⟩
    · exact .inr ⟨nHeight, block, qc, old, counts, member, types, hashes, proper⟩
    · subst top same
      exact .inl ⟨counts, qc, member, proper, types, hashes⟩
  · rintro (⟨counts, qc, member, proper, types, hashes⟩ |
      ⟨nHeight, block, qc, found, counts, member, types, hashes, proper⟩)
    · refine ⟨blocks.length, new, qc, ?_, counts, member, types, hashes, proper⟩
      rw [getElem?_append_right (le_refl _), Nat.sub_self]
      rfl
    · exact ⟨nHeight, block, qc, getElem?_append_of_some _ found, counts, member, types, hashes, proper⟩

theorem minesQuorum_perm {others : List CFinalCommitment} (same : qcs.Perm others)
    {llmqType : LLMQType} {quorumHash : Uint256} :
    MinesQuorum env qcs llmqType quorumHash <-> MinesQuorum env others llmqType quorumHash := by
  constructor
  · rintro ⟨qc, member, rest⟩
    exact ⟨qc, same.mem_iff.mp member, rest⟩
  · rintro ⟨qc, member, rest⟩
    exact ⟨qc, same.mem_iff.mpr member, rest⟩

end StakeCubeCoin.Llmq
