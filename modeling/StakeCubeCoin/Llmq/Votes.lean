import StakeCubeCoin.Library.Trace
import StakeCubeCoin.Llmq.SigningManager

namespace StakeCubeCoin.Llmq

open Primitives Library RecSigKey OrderedStore List BatchOp

/-!
# One vote for a request

A masternode signs a message for a request only after a vote for it is on record, and the record
of a vote keeps it from voting for another message.  A vote is forgotten by the cleanup, which
finds the old ones by the times they are recorded under.  The invariant is that there is no time
on record without its vote, nor two for one request.
-/

def RecSigKey.isVote : RecSigKey -> Bool
  | .vote _ _ => true
  | .voteTime _ _ _ => true
  | _ => false

def SameVotes (first second : RecSigStore) : Prop :=
  ∀ key, RecSigKey.isVote key = true -> first.read key = second.read key

theorem SameVotes.refl (store : RecSigStore) : SameVotes store store :=
  fun _ _ => rfl

theorem sameVotes_writeBatch {store : RecSigStore} {batch : List RecSigOp}
    (others : ∀ op ∈ batch, isVote op.key = false) : SameVotes (store.writeBatch batch) store := by
  intro key isVote
  rw [read_writeBatch]
  apply writeBatch_of_untouched
  intro op member same
  exact absurd (others op member) (by rw [same, isVote]; decide)

namespace CRecoveredSigsDb

variable (self : CRecoveredSigsDb)

theorem db_hasRecoveredSigForId (llmqType : LLMQType) (id : Uint256) :
    (self.hasRecoveredSigForId llmqType id).2.db = self.db := by
  unfold hasRecoveredSigForId
  split <;> rfl

theorem db_hasRecoveredSigForHash (hash : Uint256) :
    (self.hasRecoveredSigForHash hash).2.db = self.db := by
  unfold hasRecoveredSigForHash
  split <;> rfl

variable (hashes : SigningHashes)

/-- Collecting a removal changes no record and asks for no change of a vote. -/
theorem collectRemoval_frame (deleteHashKey deleteTimeKey : Bool)
    {progress : List RecSigOp × CRecoveredSigsDb} {llmqType : LLMQType} {id : Uint256}
    (others : ∀ op ∈ progress.1, isVote op.key = false) :
    (collectRemoval hashes deleteHashKey deleteTimeKey progress llmqType id).2.db = progress.2.db /\
      ∀ op ∈ (collectRemoval hashes deleteHashKey deleteTimeKey progress llmqType id).1,
        isVote op.key = false := by
  unfold collectRemoval
  dsimp only
  cases progress.2.readRecoveredSig llmqType id with
  | none => exact ⟨rfl, others⟩
  | some _ =>
    refine ⟨rfl, ?_⟩
    intro op member
    simp only [mem_append, mem_cons, not_mem_nil, or_false] at member
    rcases member with (((old | rfl | rfl) | byHash) | rfl) | byTime
    · exact others op old
    · rfl
    · rfl
    · split at byHash
      · rw [mem_singleton.mp byHash]
        rfl
      · cases byHash
    · rfl
    · split at byTime
      · split at byTime
        · rw [mem_singleton.mp byTime]
          rfl
        · cases byTime
      · cases byTime

theorem sameVotes_truncateRecoveredSig (self : CRecoveredSigsDb) (llmqType : LLMQType)
    (id : Uint256) :
    SameVotes (self.truncateRecoveredSig hashes llmqType id).db self.db := by
  have frame := @collectRemoval_frame hashes false false ([], self) llmqType id
    (fun op member => absurd member not_mem_nil)
  change SameVotes (writeBatch _ _) _
  rw [frame.1]
  exact sameVotes_writeBatch frame.2

theorem sameVotes_cleanupOldRecoveredSigs (self : CRecoveredSigsDb) (maxAge adjustedTime : Int) :
    SameVotes (self.cleanupOldRecoveredSigs hashes maxAge adjustedTime).db self.db := by
  have frame : ∀ (entries : List (BitVec 32 × LLMQType × Uint256))
    (progress : List RecSigOp × CRecoveredSigsDb),
    (∀ op ∈ progress.1, isVote op.key = false) ->
    (entries.foldl
      (fun progress entry => collectRemoval hashes true false progress entry.2.1 entry.2.2) progress).2.db =
        progress.2.db /\
    ∀ op ∈ (entries.foldl
      (fun progress entry => collectRemoval hashes true false progress entry.2.1 entry.2.2) progress).1,
        isVote op.key = false := by
    intro entries
    induction entries with
    | nil => exact fun progress others => ⟨rfl, others⟩
    | cons entry _ ih =>
      intro progress others
      have first := @collectRemoval_frame hashes true false progress entry.2.1 entry.2.2 others
      have later := ih _ first.2
      exact ⟨later.1.trans first.1, later.2⟩
  unfold cleanupOldRecoveredSigs
  dsimp only [commit]
  generalize oldRecoveredSigs _ _ = toDelete
  have collected := frame toDelete ([], self) (fun op member => absurd member not_mem_nil)
  rw [collected.1]
  apply sameVotes_writeBatch
  intro op member
  rcases mem_append.mp member with removal | byTime
  · exact collected.2 op removal
  · rcases mem_map.mp byTime with ⟨entry, _, rfl⟩
    rfl

variable {entry : BitVec 32 × LLMQType × Uint256}

theorem mem_oldVotes {endTime : BitVec 32} {entries : List (RecSigKey × RecSigValue)}
    (member : entry ∈ oldVotes endTime entries) :
    entry.1 < endTime /\ ∃ value, (.voteTime entry.1 entry.2.1 entry.2.2, value) ∈ entries := by
  induction entries with
  | nil => cases member
  | cons head _ ih =>
    rcases head with ⟨key, value⟩
    cases key with
    | voteTime _ _ _ =>
      rw [oldVotes] at member
      split at member
      · cases member
      next young =>
      rcases mem_cons.mp member with rfl | later
      · exact ⟨BitVec.not_le.mp young, value, (.head _)⟩
      · rcases ih later with ⟨old, other, listed⟩
        exact ⟨old, other, .tail _ listed⟩
    | _ => cases member

def forgottenVotes (maxAge adjustedTime : Int) : List (BitVec 32 × LLMQType × Uint256) :=
  oldVotes (seconds32 (adjustedTime - maxAge)) (self.db.seek (.voteTime 0 0 0))

variable {self : CRecoveredSigsDb} {adjustedTime maxAge : Int}

theorem mem_cleanupBatch {op : RecSigOp} :
    (op ∈ (self.forgottenVotes maxAge adjustedTime).flatMap fun entry =>
      [erase (.voteTime entry.1 entry.2.1 entry.2.2), .erase (.vote entry.2.1 entry.2.2)]) <->
      ∃ entry ∈ self.forgottenVotes maxAge adjustedTime,
        (op = .erase (.voteTime entry.1 entry.2.1 entry.2.2) \/ op = .erase (.vote entry.2.1 entry.2.2)) := by
  simp only [mem_flatMap, mem_cons, not_mem_nil, or_false]

theorem read_cleanupOldVotes_of_forgotten
    (forgotten : entry ∈ self.forgottenVotes maxAge adjustedTime) {key : RecSigKey}
    (concerned : key = .voteTime entry.1 entry.2.1 entry.2.2 \/ key = .vote entry.2.1 entry.2.2) :
    (self.cleanupOldVotes maxAge adjustedTime).db.read key = none := by
  rw [cleanupOldVotes, read_writeBatch]
  refine writeBatch_of_agree _ ⟨.erase key, mem_cleanupBatch.mpr ⟨entry, forgotten, ?_⟩, rfl⟩ ?_
  · exact concerned.imp (congrArg erase) (congrArg erase)
  · intro op member _
    rcases mem_cleanupBatch.mp member with ⟨_, _, rfl | rfl⟩ <;> rfl

theorem read_cleanupOldVotes_of_kept {key : RecSigKey}
    (kept : ∀ entry ∈ self.forgottenVotes maxAge adjustedTime,
      key ≠ .voteTime entry.1 entry.2.1 entry.2.2 /\ key ≠ .vote entry.2.1 entry.2.2) :
    (self.cleanupOldVotes maxAge adjustedTime).db.read key = self.db.read key := by
  rw [cleanupOldVotes, read_writeBatch]
  apply writeBatch_of_untouched
  intro op member same
  rcases mem_cleanupBatch.mp member with ⟨entry, forgotten, rfl | rfl⟩
  · exact (kept entry forgotten).1 same.symm
  · exact (kept entry forgotten).2 same.symm

/-- A vote that is forgotten was recorded under a time before the limit. -/
theorem read_of_forgotten (forgotten : entry ∈ self.forgottenVotes maxAge adjustedTime) :
    entry.1 < seconds32 (adjustedTime - maxAge) /\
      ∃ value, self.db.read (.voteTime entry.1 entry.2.1 entry.2.2) = some value := by
  rcases mem_oldVotes forgotten with ⟨old, value, listed⟩
  exact ⟨old, value, ((mem_seek_iff _ _ _ _).mp listed).2⟩

end CRecoveredSigsDb

/-! ## Votes of earlier versions -/

/-- Every time on record has its vote, and there is one time for a vote.  The cleanup walks over the
times and erases the votes that they are about. -/
structure VotesIndexed (store : RecSigStore) : Prop where
  typed : ∀ llmqType id value, store.read (.vote llmqType id) = some value ->
    ∃ msgHash, value = .msgHash msgHash
  voted : ∀ seconds llmqType id value, store.read (.voteTime seconds llmqType id) = some value ->
    store.read (.vote llmqType id) ≠ none
  once : ∀ seconds other llmqType id value again,
    store.read (.voteTime seconds llmqType id) = some value ->
    store.read (.voteTime other llmqType id) = some again -> seconds = other

theorem vote_zero_le (llmqType : LLMQType) (id : Uint256) : vote 0 0 <= .vote llmqType id := by
  refine not_lt.mp ?_
  have zeros : rank (.vote 0 0) = [4, 0x72, 0x73, 0x5f, 0x76] ++ List.replicate 33 0 := by
    decide
  change ¬ rank _ < rank _
  rw [zeros, rank, bytes]
  have rest :=
    @OrderedStore.not_lt_replicate_zero ((field 1 llmqType ++ field 32 id).map UInt8.toNat) 33
    (by simp [length_field])
  simpa [cons_lt_cons_iff] using rest

theorem eq_vote_of_between {key : RecSigKey} {llmqType : LLMQType} {id : Uint256}
    (above : vote 0 0 <= key) (below : key < .vote llmqType id) :
    ∃ otherType otherId, key = .vote otherType otherId := by
  have parts : ∃ tail, key.rank = [4, 0x72, 0x73, 0x5f, 0x76] ++ tail := by
    have lower : ¬ key.rank < [4, 0x72, 0x73, 0x5f, 0x76] ++
      (field 1 (0 : LLMQType) ++ field 32 (0 : Uint256)).map UInt8.toNat :=
      not_lt.mpr above
    have upper : key.rank < [4, 0x72, 0x73, 0x5f, 0x76] ++
      (field 1 llmqType ++ field 32 id).map UInt8.toNat :=
      below
    exact exists_append_of_between lower upper
  rcases parts with ⟨tail, same⟩
  cases key with
  | vote otherType otherId => exact ⟨otherType, otherId, rfl⟩
  | _ => simp [rank, bytes] at same

namespace CRecoveredSigsDb

theorem mem_migration {oldDb : RecSigStore} {op : RecSigOp}
    (member : op ∈ migratedKinds.flatMap fun kind =>
      ((oldDb.seek kind.1).takeWhile kind.2).map fun entry => BatchOp.write entry.1 entry.2) :
    oldDb.read op.key = op.value := by
  rcases mem_flatMap.mp member with ⟨kind, _, within⟩
  rcases mem_map.mp within with ⟨entry, passed, rfl⟩
  exact ((mem_seek_iff oldDb kind.1 entry.1 entry.2).mp ((takeWhile_sublist _).mem passed)).2

theorem read_of_read_migrateRecoveredSigs {oldDb db : RecSigStore} (empty : db.isEmpty = true)
    {key : RecSigKey} {value : RecSigValue}
    (stored : (migrateRecoveredSigs oldDb db).read key = some value) :
    oldDb.read key = some value := by
  rw [migrateRecoveredSigs, empty, if_neg (by decide), read_writeBatch, writeBatch_eq_lastOp,
    read_of_isEmpty empty] at stored
  generalize found : lastOp _ key = last at stored
  cases last with
  | none => cases stored
  | some _ =>
    rcases exists_of_lastOp_eq_some found with ⟨_, member, rfl, same⟩
    exact (mem_migration member).trans (same.trans stored)

theorem read_vote_migrateRecoveredSigs {oldDb db : RecSigStore} (indexed : VotesIndexed oldDb)
    (empty : db.isEmpty = true) (llmqType : LLMQType) (id : Uint256) :
    (migrateRecoveredSigs oldDb db).read (.vote llmqType id) = oldDb.read (.vote llmqType id) := by
  cases stored : oldDb.read (.vote llmqType id) with
  | none =>
    cases migrated : (migrateRecoveredSigs oldDb db).read (.vote llmqType id) with
    | none => rfl
    | some value =>
      rw [read_of_read_migrateRecoveredSigs empty migrated] at stored
      cases stored
  | some value =>
    rcases indexed.typed llmqType id value stored with ⟨msgHash, rfl⟩
    rw [migrateRecoveredSigs, empty, if_neg (by decide), read_writeBatch]
    refine writeBatch_of_agree _ ⟨.write (.vote llmqType id) (.msgHash msgHash), ?_, rfl⟩ ?_
    · refine mem_flatMap.mpr ⟨(.vote 0 0, isVoteRecord), ?_, ?_⟩
      · simp [migratedKinds]
      refine mem_map.mpr ⟨(.vote llmqType id, .msgHash msgHash), ?_, rfl⟩
      refine mem_takeWhile_seek ?_ stored rfl ?_
      · exact vote_zero_le llmqType id
      · intro lower other above below kept
        rcases eq_vote_of_between above below with ⟨otherType, otherId, rfl⟩
        rcases indexed.typed otherType otherId other kept with ⟨_, rfl⟩
        rfl
    · intro op member same
      rw [<- mem_migration member, same, stored]

end CRecoveredSigsDb

end StakeCubeCoin.Llmq
