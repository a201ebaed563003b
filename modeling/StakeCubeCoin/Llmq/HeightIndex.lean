import StakeCubeCoin.Llmq.MiningRuns
import StakeCubeCoin.Llmq.QuorumRoot

namespace StakeCubeCoin.Llmq

open Primitives Evo Validation List ProcessorState Nat CEvoDB

/-!
# The records of mined commitments

A commitment that is mined leaves two records: one under its quorum, with the commitment, and
one under the height, with the height of the first block of the interval.  Both are kept along
the chain: a processed block adds its own and leaves the others, and an undone block takes its
own away.
-/

/-! ## The changes of one block -/

/-- Two changes for each commitment that is not null, and the mark of the last block. -/
def quorumOps (env : LlmqEnv) (mined height : CFinalCommitment -> EvoOp) (hash : Uint256)
    (qcs : List CFinalCommitment) : List EvoOp :=
  (qcs.flatMap fun qc => if qc.isNull env.scheme then [] else [mined qc, height qc]) ++
    [.write .bestBlockUpgrade (.hash hash)]

section

variable {env : LlmqEnv} {mined height : CFinalCommitment -> EvoOp} {hash : Uint256}
  {qcs : List CFinalCommitment} {nHeight : Nat}

theorem mem_quorumOps_iff {op : EvoOp} : op ∈ quorumOps env mined height hash qcs <->
      (∃ qc ∈ qcs, qc.isNull env.scheme = false /\ (op = mined qc \/ op = height qc)) \/
        op = .write .bestBlockUpgrade (.hash hash) := by
  unfold quorumOps
  rw [mem_append, mem_singleton, mem_flatMap]
  simp only [mem_ite_nil_left, mem_cons, not_mem_nil, or_false, Bool.not_eq_true]

variable {llmqType : LLMQType}

theorem inversedHeightKey_inj {otherType : LLMQType} {nHeight otherHeight : Nat}
    (same : inversedHeightKey llmqType nHeight = inversedHeightKey otherType otherHeight) :
    llmqType = otherType /\ nHeight = otherHeight := by
  rcases EvoKey.minedCommitmentByInversedHeight.inj same with ⟨types, heights⟩
  exact ⟨BitVec.eq_of_toNat_eq types, heights⟩

variable (key_mined : ∀ qc, (mined qc).key = minedKey qc.llmqType qc.quorumHash)
  (key_height : ∀ qc, (height qc).key = inversedHeightKey qc.llmqType nHeight)

include key_mined key_height

variable (evoDb : CEvoDB)

/-- The record of a quorum that has no commitment among them stays. -/
theorem read_minedKey_of_absent {quorumHash : Uint256}
    (absent : Not (MinesQuorum env qcs llmqType quorumHash)) :
    (evoDb.apply (quorumOps env mined height hash qcs)).read (minedKey llmqType quorumHash) =
      evoDb.read (minedKey llmqType quorumHash) := by
  apply read_apply_of_untouched
  intro op member same
  rcases mem_quorumOps_iff.mp member with ⟨qc, present, proper, rfl | rfl⟩ | rfl
  · rw [key_mined] at same
    rcases minedKey_inj same with ⟨types, hashes⟩
    exact absent ⟨qc, present, proper, types, hashes⟩
  · rw [key_height] at same
    exact inversedHeightKey_ne _ _ _ _ same
  · cases same

/-- The record of another height, or of a type without a commitment among them, stays. -/
theorem read_heightKey_of_absent {otherHeight : Nat}
    (absent : otherHeight = nHeight -> ∀ qc ∈ qcs, qc.isNull env.scheme = false ->
      qc.llmqType ≠ llmqType) :
    (evoDb.apply (quorumOps env mined height hash qcs)).read (inversedHeightKey llmqType otherHeight) =
      evoDb.read (inversedHeightKey llmqType otherHeight) := by
  apply read_apply_of_untouched
  intro op member same
  rcases mem_quorumOps_iff.mp member with ⟨qc, present, proper, rfl | rfl⟩ | rfl
  · rw [key_mined] at same
    exact inversedHeightKey_ne _ _ _ _ same.symm
  · rw [key_height] at same
    rcases inversedHeightKey_inj same with ⟨types, heights⟩
    exact absent heights.symm qc present proper types
  · cases same

theorem read_keys_of_mem (nodup : (qcs.map CFinalCommitment.llmqType).Nodup)
    {qc : CFinalCommitment} (member : qc ∈ qcs) (proper : qc.isNull env.scheme = false) :
    (evoDb.apply (quorumOps env mined height hash qcs)).read (minedKey qc.llmqType qc.quorumHash) =
        (mined qc).value /\
      (evoDb.apply (quorumOps env mined height hash qcs)).read
        (inversedHeightKey qc.llmqType nHeight) = (height qc).value := by
  have only : ∀ other ∈ qcs, other.llmqType = qc.llmqType -> other = qc :=
    fun _ present => inj_on_of_nodup_map nodup present member
  rw [<- key_mined, <- key_height]
  refine ⟨read_apply_of_agree evoDb (mem_quorumOps_iff.mpr (.inl ⟨qc, member, proper, .inl rfl⟩)) ?_,
    read_apply_of_agree evoDb (mem_quorumOps_iff.mpr (.inl ⟨qc, member, proper, .inr rfl⟩)) ?_⟩
  · intro other otherMember same
    rw [key_mined] at same
    rcases mem_quorumOps_iff.mp otherMember with ⟨_, present, _, rfl | rfl⟩ | rfl
    · rw [key_mined] at same
      rw [only _ present (minedKey_inj same).1]
    · rw [key_height] at same
      exact absurd same (inversedHeightKey_ne _ _ _ _)
    · cases same
  · intro other otherMember same
    rw [key_height] at same
    rcases mem_quorumOps_iff.mp otherMember with ⟨_, present, _, rfl | rfl⟩ | rfl
    · rw [key_mined] at same
      exact absurd same.symm (inversedHeightKey_ne _ _ _ _)
    · rw [key_height] at same
      rw [only _ present (inversedHeightKey_inj same).1]
    · cases same

end

/-! ## The records of the chain -/

/-- The database lists what was mined in the chain, and nothing for later heights. -/
structure Indexed (env : LlmqEnv) (blocks : List ChainBlock) (evoDb : CEvoDB) : Prop
    extends Listed env blocks evoDb where
  above : ∀ llmqType nHeight, blocks.length <= nHeight ->
    evoDb.read (inversedHeightKey llmqType nHeight) = none

variable {env : LlmqEnv} {blocks : List ChainBlock}

theorem Indexed.of_read_eq {evoDb other : CEvoDB} (indexed : Indexed env blocks evoDb)
    (same : ∀ key, other.read key = evoDb.read key) : Indexed env blocks other := by
  refine ⟨⟨indexed.single, ?_, ?_⟩, ?_⟩
  · intro llmqType nHeight positive within
    rw [same]
    exact indexed.heights llmqType nHeight positive within
  · intro llmqType nHeight qc positive member
    rw [same]
    exact indexed.records llmqType nHeight qc positive member
  · intro llmqType nHeight above
    rw [same]
    exact indexed.above llmqType nHeight above

def processOps (env : LlmqEnv) (chain : ChainView) (pindex : BlockPosition)
    (qcs : List CFinalCommitment) :
    List EvoOp :=
  quorumOps env (fun qc => .write (minedKey qc.llmqType qc.quorumHash) (minedRecord qc pindex.hash))
    (fun qc => .write (inversedHeightKey qc.llmqType pindex.nHeight)
      (heightRecord ((chain.lookupBlockIndex qc.quorumHash).getD 0))) pindex.hash qcs

variable {pindex : BlockPosition} {chain : ChainView} {qcs : List CFinalCommitment}

theorem minedIn_of_mem_minedAt {llmqType : LLMQType} {nHeight : Nat} {qc : CFinalCommitment}
    (positive : 0 < nHeight) (member : qc ∈ minedAt env blocks llmqType nHeight) :
    MinedIn env blocks llmqType qc.quorumHash := by
  rcases mem_minedAt_iff.mp member with ⟨block, found, active, present, typed, proper⟩
  exact ⟨nHeight, block, qc, found, ⟨positive, active⟩, present, typed, rfl, proper⟩

/-- Changes for quorums that were not mined in the chain, at a height above it, leave what is
listed. -/
theorem Listed.processOps {evoDb : CEvoDB} (listed : Listed env blocks evoDb)
    (above : blocks.length <= pindex.nHeight)
    (new : ∀ llmqType quorumHash, MinedIn env blocks llmqType quorumHash ->
      Not (MinesQuorum env qcs llmqType quorumHash)) :
    Listed env blocks (evoDb.apply (Llmq.processOps env chain pindex qcs)) where
  single := listed.single
  heights := by
    intro llmqType nHeight positive within
    unfold Llmq.processOps
    rw [read_heightKey_of_absent (fun _ => rfl) (fun _ => rfl)]
    · exact listed.heights llmqType nHeight positive within
    · intro same
      omega
  records := by
    intro llmqType nHeight qc positive member
    rcases listed.records llmqType nHeight qc positive member with ⟨block, found, stored⟩
    refine ⟨block, found, ?_⟩
    unfold Llmq.processOps
    rw [read_minedKey_of_absent (fun _ => rfl) (fun _ => rfl) _
      (new llmqType qc.quorumHash (minedIn_of_mem_minedAt positive member))]
    exact stored

variable {fBLSChecks : Bool} {vtx : List CTransaction} {base now : ProcessorState}

/-- What a call of `ProcessBlock` that returned true has written, and for which commitments. -/
theorem CallPost.processed {fJustCheck : Bool} (recorded : Recorded env blocks base)
    (post : CallPost env (.processBlock chain vtx pindex fJustCheck fBLSChecks) base (.ok ()) now) :
    ∃ qcs, now.evoDb = base.evoDb.apply (processOps env chain pindex qcs) /\
      (∀ llmqType quorumHash, MinedIn env blocks llmqType quorumHash ->
        Not (MinesQuorum env qcs llmqType quorumHash)) /\
      (fJustCheck = false -> (pindex.nHeight < env.DIP0003Height /\ qcs = []) \/
          BlockAccepted env chain vtx pindex fBLSChecks base qcs) := by
  have none : ∀ llmqType quorumHash, MinedIn env blocks llmqType quorumHash ->
    Not (MinesQuorum env [] llmqType quorumHash) := by
    rintro llmqType quorumHash _ ⟨qc, member, _⟩
    cases member
  rcases post.2 rfl with ⟨premature, written⟩ | ⟨qcs, accepted, written⟩
  · exact ⟨[], written, none, fun _ => .inl ⟨premature, rfl⟩⟩
  unfold blockOps acceptedOps storeOps at written
  unfold processOps quorumOps
  cases fJustCheck with
  | true =>
    have nothing : (qcs.flatMap fun _ => ([] : List EvoOp)) = [] := flatMap_eq_nil_iff.mpr fun _ _ => rfl
    exact ⟨[], by simpa [nothing] using written, none, nofun⟩
  | false =>
    refine ⟨qcs, by simpa only [Bool.or_false, Bool.false_eq_true, if_false] using written, ?_,
      fun _ => .inr accepted⟩
    rintro llmqType quorumHash mined ⟨qc, member, proper, types, hashes⟩
    rw [<- types, <- hashes] at mined
    exact not_minedIn_of_accepted recorded accepted
      ((getCommitmentsFromBlock_spec accepted.commitments).1.mem_iff.mp member) proper mined

/-- A block has no commitment of a type that is not null, or exactly one. -/
theorem minedAt_top_cases (new : ChainBlock) {nHeight : Nat}
    (found : getCommitmentsFromBlock env new.vtx nHeight = .ok qcs) (llmqType : LLMQType)
    (active : env.DIP0003Height <= blocks.length) :
    ((∀ qc ∈ qcs, qc.isNull env.scheme = false -> qc.llmqType ≠ llmqType) /\
      minedAt env (blocks ++ [new]) llmqType blocks.length = []) \/
      ∃ qc ∈ qcs, qc.isNull env.scheme = false /\ qc.llmqType = llmqType /\
        minedAt env (blocks ++ [new]) llmqType blocks.length = [qc] := by
  simp only [minedAt, getElem?_append_right (le_refl _), Nat.sub_self, getElem?_cons_zero,
    if_pos active]
  rcases commitmentsOfType_cases found llmqType with ⟨absent, empty⟩ | ⟨qc, member, typed, _, one⟩
  · refine .inl ⟨?_, by rw [empty]; rfl⟩
    intro qc member _ typed
    exact any_eq_false.mp absent qc member (beq_iff_eq.mpr typed)
  rw [one]
  cases null : qc.isNull env.scheme with
  | true =>
    refine .inl ⟨?_, by simp [null]⟩
    intro other otherMember proper otherTyped
    have equal := inj_on_of_nodup_map (getCommitmentsFromBlock_spec found).2 otherMember member
      (otherTyped.trans typed.symm)
    rw [equal, null] at proper
    cases proper
  | false => exact .inr ⟨qc, member, null, typed, by simp [null]⟩

/-- At every height below the new block, nothing changes. -/
theorem minedAt_append_cases {new : ChainBlock} (llmqType : LLMQType) (nHeight : Nat) :
    (nHeight < blocks.length /\
      minedAt env (blocks ++ [new]) llmqType nHeight = minedAt env blocks llmqType nHeight) \/
      nHeight = blocks.length \/
      (blocks.length < nHeight /\ minedAt env (blocks ++ [new]) llmqType nHeight = []) := by
  rcases lt_trichotomy nHeight blocks.length with below | same | above
  · exact .inl ⟨below, minedAt_append [new] below⟩
  · exact .inr (.inl same)
  · refine .inr (.inr ⟨above, minedAt_eq_nil_of_le ?_⟩)
    rw [length_append, length_singleton]
    omega

theorem Indexed.extend (indexed : Indexed env blocks base.evoDb)
    (rules : MiningRules env blocks) (recorded : Recorded env blocks base)
    (onTop : OnTop env blocks chain pindex)
    (post : CallPost env (.processBlock chain vtx pindex false fBLSChecks) base (.ok ()) now) :
    Indexed env (blocks ++ [⟨pindex.hash, vtx⟩]) now.evoDb := by
  rcases post.processed recorded with ⟨qcs, written, new, accepted⟩
  have nHeight := onTop.nHeight
  have kept : Listed env blocks (base.evoDb.apply (Llmq.processOps env chain pindex qcs)) :=
    indexed.toListed.processOps (le_of_eq nHeight.symm) new
  rw [<- written] at kept
  have stored : ∀ qc ∈ qcs, qc.isNull env.scheme = false ->
    (qcs.map CFinalCommitment.llmqType).Nodup ->
    now.evoDb.read (minedKey qc.llmqType qc.quorumHash) = some (minedRecord qc pindex.hash) /\
      now.evoDb.read (inversedHeightKey qc.llmqType pindex.nHeight) =
        some (heightRecord ((chain.lookupBlockIndex qc.quorumHash).getD 0)) := by
    intro qc member proper nodup
    rw [written]
    exact read_keys_of_mem (fun _ => rfl) (fun _ => rfl) _ nodup member proper
  -- What is at the height of the new block, for each type.
  have top : ∀ llmqType,
    ((∀ qc ∈ qcs, qc.isNull env.scheme = false -> qc.llmqType ≠ llmqType) /\
      minedAt env (blocks ++ [⟨pindex.hash, vtx⟩]) llmqType blocks.length = []) \/
      ∃ qc, qc.llmqType = llmqType /\
        minedAt env (blocks ++ [⟨pindex.hash, vtx⟩]) llmqType blocks.length = [qc] /\
        now.evoDb.read (minedKey llmqType qc.quorumHash) = some (minedRecord qc pindex.hash) /\
        now.evoDb.read (inversedHeightKey llmqType blocks.length) =
          some (heightRecord (intervalStart env llmqType blocks.length)) := by
    intro llmqType
    rcases accepted rfl with ⟨premature, empty⟩ | acceptedBlock
    · rw [nHeight] at premature
      refine .inl ⟨?_, ?_⟩
      · intro qc member
        rw [empty] at member
        cases member
      · rw [minedAt, List.getElem?_append_right (le_refl _), Nat.sub_self]
        exact if_neg (not_le.mpr premature)
    · have active := nHeight ▸ acceptedBlock.active
      rcases minedAt_top_cases ⟨pindex.hash, vtx⟩ acceptedBlock.commitments llmqType active
        with absent | ⟨qc, member, proper, typed, one⟩
      · exact .inl absent
      rcases stored qc member proper (getCommitmentsFromBlock_spec acceptedBlock.commitments).2 with
        ⟨first, second⟩
      rcases acceptedBlock.each qc member with ⟨_, acceptedQc⟩
      have known : chain.lookupBlockIndex qc.quorumHash = some (intervalStart env qc.llmqType pindex.nHeight) := by
        rcases onTop.named rules acceptedQc with ⟨_, start, same⟩
        rw [intervalStart, acceptedQc.params_eq]
        apply chain.indexed
        rw [onTop.hashes, List.getElem?_map, start, Option.map_some, same]
      rw [known, typed, nHeight] at second
      rw [typed] at first
      exact .inr ⟨qc, typed, one, first, second⟩
  refine ⟨⟨?_, ?_, ?_⟩, ?_⟩
  · intro llmqType otherHeight positive
    rcases minedAt_append_cases llmqType otherHeight with ⟨_, same⟩ | same | ⟨_, none⟩
    · rw [same]
      exact indexed.single llmqType otherHeight positive
    · rw [same]
      rcases top llmqType with ⟨_, empty⟩ | ⟨qc, _, one, _⟩
      · rw [empty]
        exact zero_le _
      · rw [one]
        exact le_refl _
    · rw [none]
      exact zero_le _
  · intro llmqType otherHeight positive within
    rw [length_append, length_singleton] at within
    rcases minedAt_append_cases llmqType otherHeight with ⟨below, same⟩ | same | ⟨above, _⟩
    · rw [same]
      exact kept.heights llmqType otherHeight positive below
    · subst same
      rcases top llmqType with ⟨absent, empty⟩ | ⟨qc, _, one, _, height⟩
      · rw [empty, written, processOps, read_heightKey_of_absent (fun _ => rfl) (fun _ => rfl) _ fun _ => absent]
        exact indexed.above llmqType _ (le_refl _)
      · rw [one]
        exact height
    · omega
  · intro llmqType otherHeight qc positive member
    rcases minedAt_append_cases llmqType otherHeight with ⟨_, same⟩ | same | ⟨_, none⟩
    · rw [same] at member
      rcases kept.records llmqType otherHeight qc positive member with ⟨block, found, record⟩
      exact ⟨block, getElem?_append_of_some _ found, record⟩
    · subst same
      rcases top llmqType with ⟨_, empty⟩ | ⟨_, _, one, record, _⟩
      · rw [empty] at member
        cases member
      rw [one] at member
      rw [mem_singleton.mp member]
      refine ⟨⟨pindex.hash, vtx⟩, ?_, record⟩
      rw [List.getElem?_append_right (le_refl _), Nat.sub_self]
      rfl
    · rw [none] at member
      cases member
  · intro llmqType otherHeight above
    rw [length_append, length_singleton] at above
    rw [written, processOps, read_heightKey_of_absent (fun _ => rfl) (fun _ => rfl) _ fun same => by omega]
    exact indexed.above llmqType otherHeight (by omega)

theorem Indexed.shorten {init : List ChainBlock}
    (indexed : Indexed env (init ++ [⟨pindex.hash, vtx⟩]) base.evoDb)
    (rules : MiningRules env (init ++ [⟨pindex.hash, vtx⟩])) (nonempty : init ≠ [])
    (nHeight : pindex.nHeight = init.length)
    (post : CallPost env (.undoBlock vtx pindex) base (.ok ()) now) :
    Indexed env init now.evoDb := by
  rcases post.2 rfl with ⟨qcs, prev, found, _, written⟩
  rw [nHeight] at found written
  have positive := length_pos_iff.mpr nonempty
  have nodup := (getCommitmentsFromBlock_spec found).2
  have changes : now.evoDb = base.evoDb.apply (quorumOps env
    (fun qc => .erase (minedKey qc.llmqType qc.quorumHash))
    (fun qc => .erase (inversedHeightKey qc.llmqType init.length)) prev.hash qcs) := written
  refine ⟨⟨?_, ?_, ?_⟩, ?_⟩
  · intro llmqType otherHeight otherPositive
    rcases lt_or_ge otherHeight init.length with below | beyond
    · rw [<- @minedAt_append env init llmqType otherHeight [⟨pindex.hash, vtx⟩] below]
      exact indexed.single llmqType otherHeight otherPositive
    · rw [minedAt_eq_nil_of_le beyond]
      exact zero_le _
  · intro llmqType otherHeight otherPositive within
    rw [changes, read_heightKey_of_absent (fun _ => rfl) (fun _ => rfl) _ fun same => by omega,
      <- @minedAt_append env init llmqType otherHeight [⟨pindex.hash, vtx⟩] within]
    apply indexed.heights llmqType otherHeight otherPositive
    rw [length_append]
    omega
  · intro llmqType otherHeight qc otherPositive member
    rcases mem_minedAt_iff.mp member with ⟨block, present, _⟩
    have within := (List.getElem?_eq_some_iff.mp present).1
    have whole := member
    rw [<- @minedAt_append env init llmqType otherHeight [⟨pindex.hash, vtx⟩] within] at whole
    rcases indexed.records llmqType otherHeight qc otherPositive whole with ⟨other, otherPresent, stored⟩
    rw [List.getElem?_append_left within] at otherPresent
    refine ⟨other, otherPresent, ?_⟩
    rw [changes, read_minedKey_of_absent (fun _ => rfl) (fun _ => rfl)]
    · exact stored
    · exact not_minesQuorum_of_minedIn rules nonempty found (minedIn_of_mem_minedAt otherPositive member)
  · intro llmqType otherHeight beyond
    rcases lt_or_ge init.length otherHeight with above | _
    · rw [changes, read_heightKey_of_absent (fun _ => rfl) (fun _ => rfl) _ fun same => by omega]
      apply indexed.above
      rw [length_append, length_singleton]
      omega
    · have same : otherHeight = init.length := by omega
      subst same
      by_cases absent : ∀ qc ∈ qcs, qc.isNull env.scheme = false -> qc.llmqType ≠ llmqType
      · have none : minedAt env (init ++ [⟨pindex.hash, vtx⟩]) llmqType init.length = [] := by
          rw [eq_nil_iff_forall_not_mem]
          intro qc member
          rcases mem_minedAt_iff.mp member with ⟨block, present, _, listed, typed, proper⟩
          rcases getElem?_append_singleton present with old | ⟨_, new⟩
          · have within := (List.getElem?_eq_some_iff.mp old).1
            omega
          · rw [new] at listed
            exact absent qc ((getCommitmentsFromBlock_spec found).1.mem_iff.mpr listed) proper typed
        rw [changes, read_heightKey_of_absent (fun _ => rfl) (fun _ => rfl) _ fun _ => absent, indexed.heights llmqType _ positive (by simp), none]
        rfl
      · simp only [not_forall, not_not] at absent
        rcases absent with ⟨qc, member, proper, typed⟩
        rw [changes, <- typed, (read_keys_of_mem (fun _ => rfl) (fun _ => rfl) _ nodup member proper).2]
        rfl

end StakeCubeCoin.Llmq
