import StakeCubeCoin.Primitives.Merkle
import StakeCubeCoin.Llmq.MiningRules

namespace StakeCubeCoin.Llmq

open Primitives Library Evo List CFinalCommitment
open Option hiding filter_filter map_map
open Nat ChainBlock Function

/-!
# The merkle root of the active quorums

`CalcCbTxMerkleRootQuorums` of `evo/cbtx.cpp`, with the functions of
`llmq/blockprocessor.cpp` that list the mined commitments.  The hashes of the commitments are
cached with the list of quorums that they belong to.  The block before the one that is looked
at is given by the hashes of its chain, genesis first: block index entries are compared as
pointers, and there is one for each hash.
-/

def readMinedRecord (scheme : BlsScheme) : Reader (CFinalCommitment × Uint256) := do
  let qc <- CFinalCommitment.unserialize scheme
  let minedBlockHash <- readWord 256 32
  pure (qc, minedBlockHash)

/-- `CQuorumBlockProcessor::GetMinedCommitment`, with the hash of the block. -/
def getMinedCommitment (scheme : BlsScheme) (evoDb : CEvoDB) (llmqType : LLMQType)
    (quorumHash : Uint256) :
    Option (CFinalCommitment × Uint256) :=
  match evoDb.read (minedKey llmqType quorumHash) with
  | some (.other bytes) => ((readMinedRecord scheme).run bytes).map Prod.fst
  | _ => none

/-- The height that is stored, which is an `int`. -/
def readQuorumHeight : EvoValue -> Option Int
  | .other bytes => ((readWord 32 4).run bytes).map fun read => read.1.toInt
  | .hash _ => none

def getAncestor (pindex : List Uint256) (nHeight : Int) : Option Uint256 :=
  if nHeight < 0 then none else pindex[nHeight.toNat]?

/-- The loop of `GetMinedCommitmentsUntilBlock` over the heights with a record, in descending order.
There is no result when the assertion fails that the first block of the interval is an ancestor. -/
def minedUntil (evoDb : CEvoDB) (llmqType : LLMQType) (pindex : List Uint256) :
    Nat -> Nat -> Option (List Uint256)
  | 0, _ => some []
  | _ + 1, 0 => some []
  | nHeight + 1, maxCount + 1 =>
    match evoDb.read (inversedHeightKey llmqType (nHeight + 1)) with
    | none => minedUntil evoDb llmqType pindex nHeight (maxCount + 1)
    | some value =>
      match readQuorumHeight value with
      | none => some []
      | some quorumHeight =>
        match getAncestor pindex quorumHeight with
        | none => none
        | some pQuorumBaseBlockIndex =>
          (minedUntil evoDb llmqType pindex nHeight maxCount).map (pQuorumBaseBlockIndex :: ·)

def getMinedCommitmentsUntilBlock (evoDb : CEvoDB) (llmqType : LLMQType) (pindex : List Uint256)
    (maxCount : Nat) : Option (List Uint256) :=
  minedUntil evoDb llmqType pindex (pindex.length - 1) maxCount

abbrev QuorumLists := List (LLMQType × List Uint256)

section

variable (env : LlmqEnv) (evoDb : CEvoDB)

def getMinedAndActiveCommitmentsUntilBlock (pindex : List Uint256) : Option QuorumLists :=
  env.llmqs.mapM fun params =>
    (getMinedCommitmentsUntilBlock evoDb params.type pindex params.signingActiveQuorumCount).map
      fun commitments => (params.type, commitments)

/-- The hashes of the mined commitments, or none if one is not found. -/
def minedHashes (quorums : QuorumLists) : Option QuorumLists :=
  quorums.mapM fun entry =>
    (entry.2.mapM fun quorumHash =>
      (getMinedCommitment env.scheme evoDb entry.1 quorumHash).map fun found =>
        env.serializeHash found.1).map fun v => (entry.1, v)

/-- Add a hash, in place of the last one if there are as many as active quorums. -/
def pushHash (params : LLMQParams) (v : List Uint256) (qcHash : Uint256) : List Uint256 :=
  (if v.length = params.signingActiveQuorumCount then v.dropLast else v) ++ [qcHash]

def setList (qcHashes : QuorumLists) (llmqType : LLMQType) (v : List Uint256) : QuorumLists :=
  if qcHashes.any fun entry => entry.1 == llmqType then
    qcHashes.map fun entry => if entry.1 = llmqType then (entry.1, v) else entry
  else qcHashes ++ [(llmqType, v)]

/-- Add the hash of a commitment of the block itself. -/
def addCommitment (qcHashes : QuorumLists) (qc : CFinalCommitment) :
    Except ProcessorFailure QuorumLists :=
  match env.getLLMQParams qc.llmqType with
  | none => .error (.assertion "false")
  | some params =>
    let v := pushHash params ((qcHashes.lookup params.type).getD []) (env.serializeHash qc)
    if params.signingActiveQuorumCount < v.length then
      .error (.reject (.dos 100 "excess-quorums-calc-cbtx-quorummerkleroot"))
    else .ok (setList qcHashes params.type v)

def addCommitments : List CTransaction -> QuorumLists -> Except ProcessorFailure QuorumLists
  | [], qcHashes => .ok qcHashes
  | tx :: rest, qcHashes =>
    if tx.nVersion = 3 /\ tx.nType = .quorumCommitment then
      match readCommitment env tx with
      | none =>
        .error (.reject (.dos 100 "bad-qc-payload-calc-cbtx-quorummerkleroot"))
      | some qc =>
        if qc.isNull env.scheme then addCommitments rest qcHashes
        else
          match addCommitment env qcHashes qc with
          | .error failure => .error failure
          | .ok added => addCommitments rest added
    else addCommitments rest qcHashes

/-- Hashes are compared by `memcmp`. -/
def hashLe (first second : Uint256) : Prop :=
  littleEndian 32 first.toNat <= littleEndian 32 second.toNat

instance : DecidableRel hashLe :=
  fun first second =>
    inferInstanceAs (Decidable (littleEndian 32 first.toNat <= littleEndian 32 second.toNat))

def hashPair (left right : Uint256) : Uint256 :=
  env.hash256 (littleEndian 32 left.toNat ++ littleEndian 32 right.toNat)

/-- The root of the sorted hashes, unless the tree is mutated. -/
def quorumMerkleRoot (qcHashesVec : List Uint256) : Except ProcessorFailure Uint256 :=
  let computed := computeMerkleRoot (hashPair env) 0 (qcHashesVec.insertionSort hashLe)
  if computed.2 then .error (.reject (.dos 100 "mutated-calc-cbtx-quorummerkleroot"))
  else .ok computed.1

/-- The static variables of `CalcCbTxMerkleRootQuorums`. -/
structure QuorumsCache where
  quorumsCached : QuorumLists := []
  qcHashesCached : QuorumLists := []
  deriving DecidableEq

/-- The part of `CalcCbTxMerkleRootQuorums` after the hashes of the mined commitments are known. -/
def rootWith (vtx : List CTransaction) (qcHashes : QuorumLists) : Except ProcessorFailure Uint256 :=
  match addCommitments env (vtx.drop 1) qcHashes with
  | .error failure => .error failure
  | .ok added => quorumMerkleRoot env (added.flatMap Prod.snd)

def calcCbTxMerkleRootQuorums (vtx : List CTransaction) (pindexPrev : List Uint256)
    (cache : QuorumsCache) : Except ProcessorFailure Uint256 × QuorumsCache :=
  match getMinedAndActiveCommitmentsUntilBlock env evoDb pindexPrev with
  | none => (.error (.assertion "pQuorumBaseBlockIndex"), cache)
  | some quorums =>
    if quorums = cache.quorumsCached then (rootWith env vtx cache.qcHashesCached, cache)
    else
      match minedHashes env evoDb quorums with
      | none => (.error (.reject (.dos 100 "commitment-not-found")), cache)
      | some qcHashes =>
        (rootWith env vtx qcHashes, { quorumsCached := quorums, qcHashesCached := qcHashes })

end

/-! ## What the chain says -/

section

variable (env : LlmqEnv) (blocks : List ChainBlock) (llmqType : LLMQType)

/-- The commitments of a type that are not null, of the block at a height. -/
def minedAt (nHeight : Nat) : List CFinalCommitment :=
  match blocks[nHeight]? with
  | none => []
  | some block =>
    if env.DIP0003Height <= nHeight then
      (commitmentsOfType env llmqType block.vtx).filter fun qc => !qc.isNull env.scheme
    else []

/-- The commitments of a type that were mined up to a height, most recent first. -/
def minedDownFrom (llmqType : LLMQType) : Nat -> List CFinalCommitment
  | 0 => []
  | nHeight + 1 => minedAt env blocks llmqType (nHeight + 1) ++ minedDownFrom llmqType nHeight

/-- The most recently mined commitments of a type, as many as there are active quorums. -/
def activeCommitments (params : LLMQParams) : List CFinalCommitment :=
  (minedDownFrom env blocks params.type (blocks.length - 1)).take params.signingActiveQuorumCount

def activeQuorums : QuorumLists :=
  env.llmqs.map fun params =>
    (params.type, (activeCommitments env blocks params).map CFinalCommitment.quorumHash)

def activeHashes : QuorumLists :=
  env.llmqs.map fun params =>
    (params.type, (activeCommitments env blocks params).map env.serializeHash)

/-- The commitment that was mined for a quorum. -/
def MinedBy (quorumHash : Uint256) (qc : CFinalCommitment) : Prop :=
  ∃ nHeight, 0 < nHeight /\ qc ∈ minedAt env blocks llmqType nHeight /\ qc.quorumHash = quorumHash

def intervalStart (nHeight : Nat) : Nat :=
  match env.getLLMQParams llmqType with
  | none => 0
  | some params => nHeight - nHeight % params.dkgInterval

/-- The database lists what was mined in the chain. -/
structure Listed (evoDb : CEvoDB) : Prop where
  single : ∀ llmqType nHeight, 0 < nHeight -> (minedAt env blocks llmqType nHeight).length <= 1
  heights : ∀ llmqType nHeight, 0 < nHeight -> nHeight < blocks.length ->
    evoDb.read (inversedHeightKey llmqType nHeight) =
      (minedAt env blocks llmqType nHeight).head?.map fun _ =>
        heightRecord (intervalStart env llmqType nHeight)
  records : ∀ llmqType nHeight qc, 0 < nHeight -> qc ∈ minedAt env blocks llmqType nHeight ->
    ∃ block, blocks[nHeight]? = some block /\
      evoDb.read (minedKey llmqType qc.quorumHash) = some (minedRecord qc block.hash)

end

section

variable {env : LlmqEnv} {blocks : List ChainBlock}

variable {qc : CFinalCommitment} {llmqType : LLMQType} {nHeight : Nat}

theorem mem_minedAt_iff : qc ∈ minedAt env blocks llmqType nHeight <->
      ∃ block, blocks[nHeight]? = some block /\ env.DIP0003Height <= nHeight /\
        qc ∈ blockCommitments env block.vtx /\ qc.llmqType = llmqType /\ qc.isNull env.scheme = false := by
  unfold minedAt commitmentsOfType
  cases blocks[nHeight]? with
  | none => simp
  | some block =>
    by_cases active : env.DIP0003Height <= nHeight
    · simp only [if_pos active, mem_filter, Bool.not_eq_true', beq_iff_eq, Option.some.injEq,
        exists_eq_left', and_assoc]
      exact ⟨fun ⟨present, typed, proper⟩ => ⟨active, present, typed, proper⟩, And.right⟩
    · simp [active]

theorem minedAt_eq_nil_of_le (beyond : blocks.length <= nHeight) :
    minedAt env blocks llmqType nHeight = [] := by
  rw [minedAt, List.getElem?_eq_none beyond]

theorem minedAt_append (more : List ChainBlock) (within : nHeight < blocks.length) :
    minedAt env (blocks ++ more) llmqType nHeight = minedAt env blocks llmqType nHeight := by
  rw [minedAt, minedAt, List.getElem?_append_left within]

theorem readable_of_mem_blockCommitments {vtx : List CTransaction}
    (member : qc ∈ blockCommitments env vtx) : qc.Readable env.scheme := by
  rcases mem_filterMap.mp member with ⟨_, _, read⟩
  split at read
  · rcases map_eq_some_iff.mp read with ⟨_, found, same⟩
    rw [<- same]
    exact property_of_getTxPayload (CFinalCommitmentTxPayload.gives_unserialize env.scheme) found
  · cases read

variable {evoDb : CEvoDB}

theorem readQuorumHeight_heightRecord (fits : nHeight < 2 ^ 31) :
    readQuorumHeight (heightRecord nHeight) = some (nHeight : Int) := by
  have number : (BitVec.ofNat 32 nHeight).toNat = nHeight := by
    exact mod_eq_of_lt (lt_trans fits (by decide))
  have reads := reads_readWord (BitVec.ofNat 32 nHeight) (show 32 <= 8 * 4 by decide) []
  rw [append_nil, number] at reads
  rw [heightRecord, readQuorumHeight, reads, map_some, BitVec.toInt_eq_toNat_of_lt, number]
  rw [number]
  omega

theorem intervalStart_le (llmqType : LLMQType) (nHeight : Nat) :
    intervalStart env llmqType nHeight <= nHeight := by
  unfold intervalStart
  split
  · exact zero_le _
  · exact sub_le _ _

/-- The listing finds the quorums that were mined, most recent first. -/
theorem minedUntil_of_listed (rules : MiningRules env blocks)
    (listed : Listed env blocks evoDb) (llmqType : LLMQType) :
    ∀ {nHeight : Nat} (maxCount : Nat), nHeight < blocks.length -> nHeight < 2 ^ 31 ->
      minedUntil evoDb llmqType (blocks.map hash) nHeight maxCount =
        some (((minedDownFrom env blocks llmqType nHeight).take maxCount).map quorumHash) := by
  intro nHeight
  induction nHeight with
  | zero =>
    intro maxCount _ _
    rw [minedUntil, minedDownFrom, take_nil, map_nil]
  | succ nHeight ih =>
    intro maxCount within fits
    cases maxCount with
    | zero => rw [minedUntil, take_zero, map_nil]
    | succ maxCount =>
      have stored := listed.heights llmqType (nHeight + 1) (succ_pos _) within
      have few := listed.single llmqType (nHeight + 1) (succ_pos _)
      rw [minedUntil, stored, minedDownFrom]
      cases mined : minedAt env blocks llmqType (nHeight + 1) with
      | nil => exact ih (maxCount + 1) (by omega) (by omega)
      | cons qc rest =>
        rw [mined, length_cons] at few
        have alone : rest = [] := length_eq_zero_iff.mp (by omega)
        subst alone
        have member : qc ∈ minedAt env blocks llmqType (nHeight + 1) := by
          rw [mined]
          exact (.head _)
        have bound := @intervalStart_le env llmqType (nHeight + 1)
        rw [List.head?_cons, map_some]
        dsimp only
        rw [readQuorumHeight_heightRecord (by omega)]
        dsimp only
        rcases mem_minedAt_iff.mp member with ⟨block, found, active, present, typed, _⟩
        rcases rules.named _ block qc found ⟨succ_pos _, active⟩ present with ⟨_, _, parameters, start, same⟩
        rw [typed] at parameters
        rw [getAncestor, if_neg (by omega), Int.toNat_natCast, intervalStart, parameters,
          List.getElem?_map, start, map_some, <- same]
        dsimp only
        rw [ih maxCount (by omega) (by omega), map_some, singleton_append, take_succ_cons, map_cons]

theorem mapM_eq_some_map {α β : Type} {f : α -> Option β} {g : α -> β} {items : List α}
    (each : ∀ item ∈ items, f item = some (g item)) : items.mapM f = some (items.map g) := by
  induction items with
  | nil => rfl
  | cons item _ ih =>
    have first := each item (.head _)
    have others := ih (forall_mem_cons.mp each).2
    rw [mapM_cons, first, others]
    rfl

theorem mem_minedDownFrom (member : qc ∈ minedDownFrom env blocks llmqType nHeight) :
    ∃ earlier, 0 < earlier /\ qc ∈ minedAt env blocks llmqType earlier := by
  induction nHeight with
  | zero => cases member
  | succ nHeight ih =>
    rcases mem_append.mp member with here | below
    · exact ⟨nHeight + 1, succ_pos _, here⟩
    · exact ih below

theorem minedBy_of_active {params : LLMQParams}
    (member : qc ∈ activeCommitments env blocks params) :
    MinedBy env blocks params.type qc.quorumHash qc := by
  rcases mem_minedDownFrom (mem_of_mem_take member) with ⟨nHeight, positive, mined⟩
  exact ⟨nHeight, positive, mined, rfl⟩

theorem MinedBy.unique (rules : MiningRules env blocks) {quorumHash : Uint256}
    {other : CFinalCommitment} (first : MinedBy env blocks llmqType quorumHash qc)
    (second : MinedBy env blocks llmqType quorumHash other) : qc = other := by
  rcases first with ⟨nHeight, positive, member, hash⟩
  rcases second with ⟨otherHeight, otherPositive, otherMember, otherHash⟩
  rcases mem_minedAt_iff.mp member with ⟨block, found, active, present, typed, proper⟩
  rcases mem_minedAt_iff.mp otherMember with
    ⟨otherBlock, otherFound, otherActive, otherPresent, otherTyped, otherProper⟩
  exact (rules.single nHeight block qc otherHeight otherBlock other found ⟨positive, active⟩ present
    otherFound ⟨otherPositive, otherActive⟩ otherPresent proper otherProper
    (typed.trans otherTyped.symm) (hash.trans otherHash.symm)).2

theorem minedHashes_of_listed (listed : Listed env blocks evoDb) :
    minedHashes env evoDb (activeQuorums env blocks) = some (activeHashes env blocks) := by
  unfold minedHashes activeQuorums activeHashes
  rw [mapM_map]
  apply mapM_eq_some_map
  intro params _
  have found : ((activeCommitments env blocks params).map quorumHash).mapM (fun quorumHash =>
    (getMinedCommitment env.scheme evoDb params.type quorumHash).map fun found =>
      env.serializeHash found.1) =
    some ((activeCommitments env blocks params).map env.serializeHash) := by
    rw [mapM_map]
    apply mapM_eq_some_map
    intro qc member
    rcases minedBy_of_active member with ⟨nHeight, positive, mined, _⟩
    rcases listed.records params.type nHeight qc positive mined with ⟨block, _, stored⟩
    rcases mem_minedAt_iff.mp mined with ⟨_, _, _, present, _⟩
    have reads : Reads (readMinedRecord env.scheme) (qc.serialize ++ littleEndian 32 block.hash.toNat)
        (qc, block.hash) := by
      refine (reads_serialize (readable_of_mem_blockCommitments present)).bind ?_
      exact Reads.last (reads_readWord block.hash (by decide)) rfl
    have run := reads []
    rw [append_nil] at run
    rw [comp_apply, getMinedCommitment, stored, minedRecord]
    dsimp only
    rw [run, map_some, map_some]
  rw [comp_apply, found, map_some]

end

/-! ## The commitments of the block itself -/

variable (env : LlmqEnv)

/-- The commitments of a type that are not null, of the block that is evaluated. -/
def ownCommitments (params : LLMQParams) (vtx : List CTransaction) : List CFinalCommitment :=
  (commitmentsOfType env params.type vtx).filter fun qc => !qc.isNull env.scheme

/-- The root that belongs to a block and its chain: of the active commitments, of which the oldest
gives way to one of the block itself. -/
def chainRoot (blocks : List ChainBlock) (vtx : List CTransaction) :
    Except ProcessorFailure Uint256 :=
  quorumMerkleRoot env (env.llmqs.flatMap fun params =>
    ((activeCommitments env blocks params).take
      (params.signingActiveQuorumCount - (ownCommitments env params vtx).length) ++
        ownCommitments env params vtx).map env.serializeHash)

/-- The commitments of a block can be collected, are of known types, and are contained in special
transactions other than the first. -/
structure Evaluable (vtx : List CTransaction) (nHeight : Nat) : Prop where
  collected : ∃ qcs, getCommitmentsFromBlock env vtx nHeight = .ok qcs
  known : ∀ qc ∈ blockCommitments env vtx, (env.getLLMQParams qc.llmqType).isSome = true
  version : ∀ tx ∈ vtx, tx.nType = .quorumCommitment -> tx.nVersion = 3
  coinbase : ∀ tx, vtx.head? = some tx -> tx.nType ≠ .quorumCommitment

def byType (v : LLMQParams -> List Uint256) : QuorumLists :=
  env.llmqs.map fun params => (params.type, v params)

variable {env} {params : LLMQParams}

theorem length_pushHash_le {v : List Uint256} (qcHash : Uint256)
    (few : v.length <= params.signingActiveQuorumCount) :
    (pushHash params v qcHash).length <= params.signingActiveQuorumCount := by
  have positive := params.active_pos
  unfold pushHash
  rw [length_append, length_singleton]
  split
  · rw [length_dropLast]
    omega
  · omega

theorem pushHash_eq_take {v : List Uint256} (qcHash : Uint256)
    (few : v.length <= params.signingActiveQuorumCount) :
    pushHash params v qcHash = v.take (params.signingActiveQuorumCount - 1) ++ [qcHash] := by
  unfold pushHash
  split
  · next full => rw [dropLast_eq_take, full]
  · next _ => rw [take_of_length_le (by omega)]

theorem addCommitment_byType {v : LLMQParams -> List Uint256} {qc : CFinalCommitment}
    (found : env.getLLMQParams qc.llmqType = some params)
    (few : (v params).length <= params.signingActiveQuorumCount) :
    addCommitment env (byType env v) qc = .ok (byType env fun other =>
      if other.type = qc.llmqType then pushHash other (v other) (env.serializeHash qc) else v other) := by
  have typed : params.type = qc.llmqType := type_of_getLLMQParams found
  have member : params ∈ env.llmqs := mem_of_find?_eq_some found
  have listed : (byType env v).lookup params.type = some (v params) := by
    rw [typed, byType]
    rw [LlmqEnv.getLLMQParams] at found
    clear member
    generalize env.llmqs = llmqs at found ⊢
    induction llmqs with
    | nil => cases found
    | cons first _ ih =>
      rw [List.find?_cons] at found
      rw [map_cons, lookup_cons]
      by_cases same : first.type = qc.llmqType
      · rw [beq_iff_eq.mpr same] at found
        cases found
        rw [beq_iff_eq.mpr same.symm]
      · rw [beq_eq_false_iff_ne.mpr same] at found
        rw [beq_eq_false_iff_ne.mpr (Ne.symm same)]
        exact ih found
  have present : ((byType env v).any fun entry => entry.1 == params.type) = true :=
    any_eq_true.mpr ⟨_, mem_map_of_mem member, beq_self_eq_true params.type⟩
  have bound := length_pushHash_le (env.serializeHash qc) few
  rw [addCommitment, found]
  dsimp only
  rw [listed, getD_some, if_neg (not_lt.mpr bound), setList, if_pos present, byType,
    byType, map_map]
  congr 1
  apply map_congr_left
  intro other otherMember
  rw [comp_apply]
  by_cases same : other.type = params.type
  · have equal : other = params := inj_on_of_nodup_map env.distinct otherMember member same
    rw [if_pos same, if_pos (same.trans typed), equal]
  · rw [if_neg same, if_neg fun impossible => same (impossible.trans typed.symm)]

theorem ownCommitments_cons (params : LLMQParams) (tx : CTransaction) (rest : List CTransaction) :
    ownCommitments env params (tx :: rest) =
      ownCommitments env params [tx] ++ ownCommitments env params rest := by
  unfold ownCommitments commitmentsOfType blockCommitments
  rw [<- filter_append, <- filter_append, <- filterMap_append, singleton_append]

theorem blockCommitments_cons (tx : CTransaction) (rest : List CTransaction) :
    blockCommitments env (tx :: rest) = blockCommitments env [tx] ++ blockCommitments env rest := by
  unfold blockCommitments
  rw [<- filterMap_append, singleton_append]

/-- Adding the commitments of some transactions, one after the other. -/
theorem addCommitments_byType {txs : List CTransaction}
    (version : ∀ tx ∈ txs, tx.nType = .quorumCommitment ->
      tx.nVersion = 3 /\ (readCommitment env tx).isSome = true)
    (known : ∀ qc ∈ blockCommitments env txs, (env.getLLMQParams qc.llmqType).isSome = true) :
    ∀ {v : LLMQParams -> List Uint256}, (∀ params, (v params).length <= params.signingActiveQuorumCount) ->
      addCommitments env txs (byType env v) = .ok (byType env fun params =>
        (ownCommitments env params txs).foldl
          (fun list qc => pushHash params list (env.serializeHash qc)) (v params)) := by
  induction txs with
  | nil =>
    intro v _
    rfl
  | cons tx rest ih =>
    intro v few
    have restVersion := (forall_mem_cons.mp version).2
    have restKnown := fun qc member => known qc (by
      rw [blockCommitments_cons]
      exact mem_append_right _ member)
    have others := @ih restVersion restKnown
    simp only [ownCommitments_cons _ tx rest, foldl_append]
    rw [addCommitments]
    by_cases special : tx.nType = .quorumCommitment
    · rcases version tx (.head _) special with ⟨three, readable⟩
      rw [if_pos ⟨three, special⟩]
      rcases isSome_iff_exists.mp readable with ⟨qc, read⟩
      have alone : blockCommitments env [tx] = [qc] := by simp [blockCommitments, special, read]
      rw [read]
      dsimp only
      cases null : qc.isNull env.scheme with
      | true =>
        have none : ∀ params, ownCommitments env params [tx] = [] := by
          intro params
          rw [ownCommitments, commitmentsOfType, alone, filter_filter, filter_eq_nil_iff]
          intro other single
          rw [mem_singleton.mp single, null]
          simp
        simp only [none, foldl_nil, if_true]
        exact others few
      | false =>
        have member : qc ∈ blockCommitments env (tx :: rest) := by
          rw [blockCommitments_cons, alone]
          exact mem_append_left _ (mem_singleton_self qc)
        rcases isSome_iff_exists.mp (known qc member) with ⟨params, found⟩
        have one : ∀ other : LLMQParams, ownCommitments env other [tx] =
          if other.type = qc.llmqType then [qc] else [] := by
          intro other
          rw [ownCommitments, commitmentsOfType, alone]
          by_cases same : other.type = qc.llmqType
          · simp [same, null]
          · simp [same, Ne.symm same]
        rw [addCommitment_byType found (few params)]
        simp only [Bool.false_eq_true, if_false]
        rw [others]
        · congr 2
          funext other
          rw [one other]
          by_cases same : other.type = qc.llmqType
          · rw [if_pos same, if_pos same, foldl_cons, foldl_nil]
          · rw [if_neg same, if_neg same, foldl_nil]
        · intro other
          split
          · exact length_pushHash_le _ (few other)
          · exact few other
    · have none : ∀ params, ownCommitments env params [tx] = [] := by
        intro params
        simp [ownCommitments, commitmentsOfType, blockCommitments, special]
      simp only [none, foldl_nil]
      rw [if_neg fun both => special both.2]
      exact others few

variable {vtx : List CTransaction}

/-- From the hashes of the active commitments, the root of the chain is computed. -/
theorem rootWith_activeHashes {blocks : List ChainBlock} {nHeight : Nat}
    (evaluable : Evaluable env vtx nHeight) :
    rootWith env vtx (activeHashes env blocks) = chainRoot env blocks vtx := by
  have without : ∀ params, ownCommitments env params (vtx.drop 1) =
    ownCommitments env params vtx := by
    intro params
    cases vtx with
    | nil => rfl
    | cons coinbase rest =>
      have ordinary := evaluable.coinbase coinbase rfl
      have none : ownCommitments env params [coinbase] = [] := by
        simp [ownCommitments, commitmentsOfType, blockCommitments, ordinary]
      rw [ownCommitments_cons, none]
      rfl
  have version : ∀ tx ∈ vtx.drop 1, tx.nType = .quorumCommitment ->
    tx.nVersion = 3 /\ (readCommitment env tx).isSome = true := by
    intro tx member special
    rcases evaluable.collected with ⟨_, collected⟩
    unfold getCommitmentsFromBlock at collected
    split at collected
    · cases collected
    next _ found =>
    have whole := mem_of_mem_drop member
    refine ⟨evaluable.version tx whole special, ?_⟩
    clear evaluable member without
    generalize ([] : List CFinalCommitment) = ret at found
    induction vtx generalizing ret with
    | nil => cases whole
    | cons _ _ ih =>
      rw [collectCommitments] at found
      split at found
      · split at found
        · cases found
        next _ read =>
        split at found
        · cases found
        · rcases mem_cons.mp whole with same | later
          · rw [same, read]
            rfl
          · exact ih later _ found
      · next ordinary =>
        rcases mem_cons.mp whole with same | later
        · rw [same] at special
          exact absurd special ordinary
        · exact ih later _ found
  have few : ∀ params : LLMQParams,
    ((activeCommitments env blocks params).map env.serializeHash).length <=
      params.signingActiveQuorumCount := by
    intro params
    rw [length_map, activeCommitments]
    exact length_take_le _ _
  have known : ∀ qc ∈ blockCommitments env (vtx.drop 1),
    (env.getLLMQParams qc.llmqType).isSome = true := by
    intro qc member
    cases vtx with
    | nil => cases member
    | cons coinbase rest =>
      apply evaluable.known qc
      rw [blockCommitments_cons]
      exact mem_append_right _ member
  have added := addCommitments_byType version known few
  rw [byType] at added
  rw [rootWith, activeHashes, added]
  dsimp only
  rw [chainRoot, byType, flatMap_map]
  congr 2
  funext params
  rw [without params]
  rcases evaluable.collected with ⟨_, collected⟩
  have own : ownCommitments env params vtx = [] \/ ∃ qc, ownCommitments env params vtx = [qc] := by
    unfold ownCommitments
    rcases commitmentsOfType_cases collected params.type with ⟨_, empty⟩ | ⟨qc, _, _, _, one⟩
    · rw [empty]
      exact .inl rfl
    · rw [one]
      cases null : qc.isNull env.scheme with
      | true => exact .inl (by simp [null])
      | false => exact .inr ⟨qc, by simp [null]⟩
  rcases own with empty | ⟨qc, one⟩
  · rw [empty, foldl_nil, append_nil, length_nil, Nat.sub_zero, activeCommitments, take_take, min_self]
  · rw [one, foldl_cons, foldl_nil, pushHash_eq_take _ (few params), map_append,
      map_take, length_singleton, map_singleton]

end StakeCubeCoin.Llmq
