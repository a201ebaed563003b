import StakeCubeCoin.Llmq.Votes

namespace StakeCubeCoin.Llmq

open Primitives Library CRecoveredSigsDb OrderedStore CSigningManager List RecSigKey SameVotes

/-!
# Votes over whole runs

The calls of a signing manager one after another, with restarts that keep the database.  Along
with the manager, a run keeps what the calls of `AsyncSign` were for, and when the votes on record
were written.  A vote stays on record until the cleanup finds it older than allowed, unless the
clock runs back or the limit of the cleanup wraps around.
-/

/-- The hashes, the database of an earlier version and the age up to which votes are kept. -/
structure VoteEnv where
  hashes : SigningHashes
  oldDb : RecSigStore
  oldDb_indexed : VotesIndexed oldDb
  maxAge : Int

/-- A call of `AsyncSign`, when it was made, and when the vote on record was written. -/
structure SignRecord where
  llmqType : LLMQType
  id : Uint256
  msgHash : Uint256
  time : Int
  votedAt : Int
  deriving DecidableEq

structure VoteRun where
  manager : CSigningManager
  clock : Int
  writtenAt : LLMQType -> Uint256 -> Int
  signed : List SignRecord

/-- The calls of a signing manager, with the readings of the clock. -/
inductive SigningEvent where
  | asyncSignIfMember (view : SigningView) (llmqType : LLMQType) (id msgHash quorumHash : Uint256)
    (allowReSign : Bool) (adjustedTime : Int)
  | processRecoveredSig (recoveredSig : CRecoveredSig) (adjustedTime : Int)
  | truncateRecoveredSig (llmqType : LLMQType) (id : Uint256)
  | cleanup (times : CSigningManager.CleanupTimes)
  | restart

/-- The time that a vote of an earlier version is recorded under. -/
def recordedTime (store : RecSigStore) (llmqType : LLMQType) (id : Uint256) : Option Int :=
  store.entries.findSome? fun entry =>
    match entry.1 with
    | .voteTime seconds otherType otherId =>
      if otherType = llmqType /\ otherId = id then some seconds.toNat else none
    | _ => none

namespace VoteRun

variable (env : VoteEnv)

def opened (db : RecSigStore) (run : VoteRun) : VoteRun :=
  { run with
    manager := { db := CRecoveredSigsDb.create env.oldDb db }
    writtenAt := fun llmqType id =>
      if db.isEmpty then (recordedTime env.oldDb llmqType id).getD (run.writtenAt llmqType id)
      else run.writtenAt llmqType id }

def start : VoteRun :=
  opened env OrderedStore.empty
    { manager := { db := { db := OrderedStore.empty } }, clock := 0, writtenAt := fun _ _ => 0, signed := [] }

variable (run : VoteRun)

/-- The cleanup returns at once. -/
def Skipped (times : CSigningManager.CleanupTimes) : Prop :=
  times.millisBefore - run.manager.lastCleanupTime < 5000

instance (run : VoteRun) (times : CSigningManager.CleanupTimes) : Decidable (run.Skipped times) :=
  inferInstanceAs (Decidable (_ < _))

def step : SigningEvent -> VoteRun
  | .asyncSignIfMember view llmqType id msgHash quorumHash allowReSign adjustedTime =>
    let outcome := run.manager.asyncSignIfMember view llmqType id msgHash quorumHash allowReSign adjustedTime
    let writtenAt := fun otherType otherId =>
      if outcome.voted /\ otherType = llmqType /\ otherId = id then adjustedTime
      else run.writtenAt otherType otherId
    { manager := outcome.manager
      clock := adjustedTime
      writtenAt := writtenAt
      signed := run.signed ++ outcome.asyncSign.toList.map fun call =>
        { llmqType, id := call.id, msgHash := call.msgHash, time := adjustedTime
          votedAt := writtenAt llmqType id } }
  | .processRecoveredSig recoveredSig adjustedTime =>
    { run with manager := run.manager.processRecoveredSig env.hashes recoveredSig adjustedTime }
  | .truncateRecoveredSig llmqType id =>
    { run with manager := run.manager.truncateRecoveredSig env.hashes llmqType id }
  | .cleanup times =>
    { run with
      manager := run.manager.cleanup env.hashes env.maxAge times
      clock := if run.Skipped times then run.clock else times.votes }
  | .restart => run.opened env run.manager.db.db

/-- Two calls are not for different messages of one request, unless the later one is made when
the vote for the earlier one is too old. -/
def Agree (maxAge : Int) (earlier later : SignRecord) : Prop :=
  earlier.llmqType = later.llmqType -> earlier.id = later.id ->
    later.time < earlier.votedAt + maxAge -> earlier.msgHash = later.msgHash

/-- The clock does not run back and fits into 32 bits, and votes from before the epoch need not
be forgotten. -/
def ClockSound : SigningEvent -> Prop
  | .asyncSignIfMember _ _ _ _ _ _ adjustedTime => run.clock <= adjustedTime /\
    adjustedTime < 2 ^ 32
  | .cleanup times => run.Skipped times \/ run.clock <= times.votes /\ env.maxAge <= times.votes
  | _ => True

instance (run : VoteRun) (event : SigningEvent) : Decidable (ClockSound env run event) :=
  match event with
  | .asyncSignIfMember _ _ _ _ _ _ _ => inferInstanceAs (Decidable (_ /\ _))
  | .cleanup _ => inferInstanceAs (Decidable (_ \/ _))
  | .processRecoveredSig _ _ => .isTrue trivial
  | .truncateRecoveredSig _ _ => .isTrue trivial
  | .restart => .isTrue trivial

/-- The votes of a database were written when the run says, and each has its message. -/
structure Dated (store : RecSigStore) (writtenAt : LLMQType -> Uint256 -> Int) : Prop where
  typed : ∀ llmqType id value, store.read (.vote llmqType id) = some value ->
    ∃ msgHash, value = .msgHash msgHash
  voted : ∀ seconds llmqType id value, store.read (.voteTime seconds llmqType id) = some value ->
    store.read (.vote llmqType id) ≠ none
  dated : ∀ seconds llmqType id value, store.read (.voteTime seconds llmqType id) = some value ->
    writtenAt llmqType id = seconds.toNat

/-- The vote that allowed a call is on record, or too old. -/
def Kept (maxAge clock : Int) (store : RecSigStore) (writtenAt : LLMQType -> Uint256 -> Int)
    (record : SignRecord) : Prop :=
  record.votedAt + maxAge <= clock \/
    (store.read (.vote record.llmqType record.id) = some (.msgHash record.msgHash) /\
      writtenAt record.llmqType record.id = record.votedAt)

/-- The votes on record, and the calls that they allowed.  Two calls that signed different messages
for one id are further apart than votes are kept. -/
structure Remembers (run : VoteRun) : Prop where
  clock : 0 <= run.clock
  dated : Dated run.manager.db.db run.writtenAt
  kept : ∀ record ∈ run.signed, Kept env.maxAge run.clock run.manager.db.db run.writtenAt record
  agree : run.signed.Pairwise (Agree env.maxAge)

variable {writtenAt : LLMQType -> Uint256 -> Int}

theorem Dated.congr {first second : RecSigStore}
    (dated : Dated first writtenAt) (same : SameVotes second first) : Dated second writtenAt where
  typed llmqType id value stored := dated.typed llmqType id value ((same _ rfl).symm.trans stored)
  voted seconds llmqType id value stored absent :=
    dated.voted seconds llmqType id value ((same _ rfl).symm.trans stored) ((same _ rfl).symm.trans absent)
  dated seconds llmqType id value stored :=
    dated.dated seconds llmqType id value ((same _ rfl).symm.trans stored)

variable {run : VoteRun}

/-- A call that leaves the votes alone keeps the invariant. -/
theorem Remembers.congr {env : VoteEnv} (remembers : run.Remembers env)
    {manager : CSigningManager} (same : SameVotes manager.db.db run.manager.db.db) :
    Remembers env { run with manager } where
  clock := remembers.clock
  dated := remembers.dated.congr same
  kept record member := by
    refine (remembers.kept record member).imp_right ?_
    exact fun there => ⟨(same _ rfl).trans there.1, there.2⟩
  agree := remembers.agree

variable {llmqType : LLMQType} {store : RecSigStore} {id : Uint256}

theorem recordedTime_eq (indexed : VotesIndexed store) {seconds : BitVec 32} {value : RecSigValue}
    (stored : store.read (.voteTime seconds llmqType id) = some value) :
    recordedTime store llmqType id = some (seconds.toNat : Int) := by
  have listed := (mem_entries_iff store _ _).mpr stored
  cases found : recordedTime store llmqType id with
  | none =>
    have missed := List.findSome?_eq_none_iff.mp found _ listed
    simp at missed
  | some _ =>
    rcases exists_of_findSome?_eq_some found with ⟨⟨key, _⟩, there, matched⟩
    cases key with
    | voteTime other _ _ =>
      dsimp only at matched
      split at matched
      · next same =>
        rcases same with ⟨rfl, rfl⟩
        have equal := indexed.once seconds other _ _ _ _ stored ((mem_entries_iff store _ _).mp there)
        rw [equal]
        exact matched.symm
      · cases matched
    | _ => cases matched

/-- A database that was migrated has the dates of the earlier version. -/
theorem dated_opened_of_isEmpty {db : RecSigStore} (empty : db.isEmpty = true) (run : VoteRun) :
    Dated (run.opened env db).manager.db.db (run.opened env db).writtenAt where
  typed llmqType id value stored :=
    env.oldDb_indexed.typed llmqType id value (read_of_read_migrateRecoveredSigs empty stored)
  voted seconds llmqType id value stored absent := by
    have before := read_of_read_migrateRecoveredSigs empty stored
    refine env.oldDb_indexed.voted seconds llmqType id value before ?_
    rw [<- read_vote_migrateRecoveredSigs env.oldDb_indexed empty llmqType id]
    exact absent
  dated seconds llmqType id value stored := by
    have before := read_of_read_migrateRecoveredSigs empty stored
    change (if db.isEmpty then _ else _) = _
    rw [empty, recordedTime_eq env.oldDb_indexed before]
    rfl

theorem remembers_start : (start env).Remembers env where
  clock := le_refl 0
  dated := dated_opened_of_isEmpty env rfl _
  kept _ member := absurd member not_mem_nil
  agree := List.Pairwise.nil

/-- A restart finds the votes where they were.  If there are none, no call is remembered. -/
theorem remembers_restart (remembers : run.Remembers env) :
    (run.opened env run.manager.db.db).Remembers env := by
  cases empty : run.manager.db.db.isEmpty with
  | true =>
    refine ⟨remembers.clock, dated_opened_of_isEmpty env empty run, ?_, remembers.agree⟩
    intro record member
    rcases remembers.kept record member with expired | ⟨stored, _⟩
    · exact .inl expired
    · rw [read_of_isEmpty empty] at stored
      cases stored
  | false =>
    have same : run.opened env run.manager.db.db =
      { run with manager := { db := { db := run.manager.db.db } } } := by
      simp [opened, create, migrateRecoveredSigs, empty]
    rw [same]
    exact remembers.congr (refl _)

theorem sameVotes_processRecoveredSig (hashes : SigningHashes) (self : CSigningManager)
    (recoveredSig : CRecoveredSig) (adjustedTime : Int) :
    SameVotes (self.processRecoveredSig hashes recoveredSig adjustedTime).db.db self.db.db := by
  have byHash := db_hasRecoveredSigForHash self.db (hashes.getHash recoveredSig)
  unfold processRecoveredSig
  generalize self.db.hasRecoveredSigForHash (hashes.getHash recoveredSig) = first at byHash
  have byId := db_hasRecoveredSigForId first.2 recoveredSig.llmqType recoveredSig.id
  dsimp only
  generalize first.2.hasRecoveredSigForId recoveredSig.llmqType recoveredSig.id = second at byId
  have unchanged : second.2.db = self.db.db := byId.trans byHash
  cases first.1 with
  | true =>
    change SameVotes first.2.db self.db.db
    rw [byHash]
    exact refl _
  | false =>
    rw [if_neg (by decide)]
    split
    · rw [unchanged]
      exact refl _
    rw [<- unchanged]
    apply sameVotes_writeBatch
    intro op member
    simp only [mem_cons, not_mem_nil, or_false] at member
    rcases member with rfl | rfl | rfl | rfl | rfl <;> rfl

variable {db : CRecoveredSigsDb} {maxAge time : Int}

theorem dated_cleanupOldVotes (dated : Dated db.db writtenAt) (maxAge time : Int) :
    Dated (db.cleanupOldVotes maxAge time).db writtenAt := by
  have before : ∀ key value, (db.cleanupOldVotes maxAge time).db.read key = some value ->
    db.db.read key = some value /\ ∀ entry ∈ db.forgottenVotes maxAge time,
      key ≠ .voteTime entry.1 entry.2.1 entry.2.2 /\ key ≠ .vote entry.2.1 entry.2.2 := by
    intro key value stored
    have kept : ∀ entry ∈ db.forgottenVotes maxAge time,
      key ≠ .voteTime entry.1 entry.2.1 entry.2.2 /\ key ≠ .vote entry.2.1 entry.2.2 := by
      intro entry forgotten
      refine ⟨fun same => ?_, fun same => ?_⟩
      · rw [read_cleanupOldVotes_of_forgotten forgotten (.inl same)] at stored
        cases stored
      · rw [read_cleanupOldVotes_of_forgotten forgotten (.inr same)] at stored
        cases stored
    exact ⟨(read_cleanupOldVotes_of_kept kept).symm.trans stored, kept⟩
  refine ⟨?_, ?_, ?_⟩
  · intro llmqType id value stored
    exact dated.typed llmqType id value (before _ _ stored).1
  · intro seconds llmqType id value stored absent
    rcases before _ _ stored with ⟨there, kept⟩
    refine dated.voted seconds llmqType id value there ?_
    rw [<- absent]
    refine (read_cleanupOldVotes_of_kept ?_).symm
    intro entry forgotten
    refine ⟨nofun, fun same => ?_⟩
    -- The vote went with a time of its own, which can only be this one.
    rcases read_of_forgotten forgotten with ⟨_, other, stale⟩
    injection same with sameType sameId
    have first := dated.dated seconds llmqType id value there
    have second := dated.dated entry.1 entry.2.1 entry.2.2 other stale
    rw [<- sameType, <- sameId] at second
    have equal : seconds = entry.1 := BitVec.eq_of_toNat_eq (by omega)
    exact (kept entry forgotten).1 (by rw [equal, sameType, sameId])
  · intro seconds llmqType id value stored
    exact dated.dated seconds llmqType id value (before _ _ stored).1

/-- The cleanup forgets only votes that are too old. -/
theorem remembers_cleanup (remembers : run.Remembers env)
    {times : CleanupTimes} (sound : ClockSound env run (.cleanup times)) :
    (run.step env (.cleanup times)).Remembers env := by
  by_cases skipped : run.Skipped times
  · have same : run.step env (.cleanup times) = run := by
      simp [step, cleanup, skipped, show times.millisBefore - run.manager.lastCleanupTime < 5000 from skipped]
    rw [same]
    exact remembers
  · rcases sound.resolve_left skipped with ⟨later, reached⟩
    have ran : run.step env (.cleanup times) =
      { run with
        manager := {
          db := (run.manager.db.cleanupOldRecoveredSigs env.hashes env.maxAge
            times.recoveredSigs).cleanupOldVotes env.maxAge times.votes
          lastCleanupTime := times.millisAfter }
        clock := times.votes } := by
      simp [step, cleanup, skipped, show ¬ times.millisBefore - run.manager.lastCleanupTime < 5000 from skipped]
    rw [ran]
    have same := sameVotes_cleanupOldRecoveredSigs env.hashes run.manager.db env.maxAge
      times.recoveredSigs
    generalize run.manager.db.cleanupOldRecoveredSigs env.hashes env.maxAge times.recoveredSigs = db at same
    have dated := remembers.dated.congr same
    refine ⟨remembers.clock.trans later, dated_cleanupOldVotes dated env.maxAge times.votes, ?_, remembers.agree⟩
    intro record member
    rcases remembers.kept record member with expired | ⟨stored, written⟩
    · exact .inl (expired.trans later)
    by_cases forgotten : ∃ entry ∈ db.forgottenVotes env.maxAge times.votes,
      vote record.llmqType record.id = .vote entry.2.1 entry.2.2
    · rcases forgotten with ⟨entry, forgotten, same⟩
      injection same with sameType sameId
      rcases read_of_forgotten forgotten with ⟨old, value, entered⟩
      have below : entry.1.toNat < (seconds32 (times.votes - env.maxAge)).toNat := BitVec.lt_def.mp old
      have limit : ((seconds32 (times.votes - env.maxAge)).toNat : Int) <= times.votes - env.maxAge := by
        rw [seconds32, BitVec.toNat_ofInt]
        omega
      have stamp := dated.dated entry.1 entry.2.1 entry.2.2 value entered
      rw [<- sameType, <- sameId, written] at stamp
      refine .inl ?_
      change record.votedAt + env.maxAge <= times.votes
      omega
    · refine .inr ⟨?_, written⟩
      rw [<- stored, <- same _ rfl]
      apply read_cleanupOldVotes_of_kept
      exact fun entry member => ⟨nofun, fun same => forgotten ⟨entry, member, same⟩⟩

/-- The ways out of `AsyncSignIfMember`: nothing is signed, the vote on record is signed again, or
a new vote is written and signed. -/
theorem asyncSignIfMember_cases (self : CSigningManager) (view : SigningView) (llmqType : LLMQType)
    (id msgHash quorumHash : Uint256) (allowReSign : Bool) (adjustedTime : Int)
    {outcome : SignOutcome}
    (returned : self.asyncSignIfMember view llmqType id msgHash quorumHash allowReSign adjustedTime = outcome) :
    (outcome.asyncSign = none /\ outcome.voted = false /\ outcome.manager.db.db = self.db.db) \/
    (∃ quorum, outcome.asyncSign = some ⟨quorum, id, msgHash⟩ /\ outcome.voted = false /\
      outcome.manager.db.db = self.db.db /\ self.db.hasVotedOnId llmqType id = true /\
      msgHash = (self.db.getVoteForId llmqType id).getD 0) \/
    (∃ quorum, outcome.asyncSign = some ⟨quorum, id, msgHash⟩ /\ outcome.voted = true /\
      self.db.hasVotedOnId llmqType id = false /\ ∀ key, outcome.manager.db.db.read key =
        if key = .voteTime (seconds32 adjustedTime) llmqType id then some .present
        else if key = .vote llmqType id then some (.msgHash msgHash) else self.db.db.read key) := by
  subst returned
  unfold asyncSignIfMember
  have frame := db_hasRecoveredSigForId self.db llmqType id
  cases signingQuorum view llmqType id quorumHash with
  | none => exact .inl ⟨rfl, rfl, rfl⟩
  | some quorum =>
    dsimp only
    generalize self.db.hasRecoveredSigForId llmqType id = queried at frame
    split
    · exact .inl ⟨rfl, rfl, rfl⟩
    next allowed =>
    split
    · exact .inl ⟨rfl, rfl, frame⟩
    split
    · next voted =>
      refine .inr (.inl ⟨quorum, rfl, rfl, frame, voted, ?_⟩)
      by_contra other
      rw [voted, Bool.true_and, Bool.or_eq_true, decide_eq_true_eq] at allowed
      exact allowed (.inl other)
    · next unvoted =>
      refine .inr (.inr ⟨quorum, rfl, rfl, Bool.eq_false_iff.mpr unvoted, ?_⟩)
      intro key
      rw [<- frame, writeVoteForId, read_writeBatch]
      simp only [writeBatch_cons, writeBatch_nil, BatchOp.apply, BatchOp.key, BatchOp.value,
        Function.update_apply]

variable {clock : Int}

theorem agree_of_kept {earlier later : SignRecord}
    (kept : Kept maxAge clock store writtenAt earlier) (now : clock <= later.time)
    (stored : store.read (.vote later.llmqType later.id) = none \/
      store.read (.vote later.llmqType later.id) = some (.msgHash later.msgHash)) :
    Agree maxAge earlier later := by
  intro sameType sameId inTime
  rcases kept with _ | ⟨there, _⟩
  · omega
  rw [<- sameType, <- sameId, there] at stored
  rcases stored with absent | same
  · cases absent
  · injection same with same
    injection same

theorem Kept.later {record : SignRecord} (kept : Kept maxAge clock store writtenAt record)
    (later : clock <= time) :
    Kept maxAge time store writtenAt record :=
  kept.imp_left fun expired => expired.trans later

variable {msgHash : Uint256}

section

variable {before after : RecSigStore} (absent : before.read (.vote llmqType id) = none)
  (reads : ∀ key, after.read key = if key = .voteTime (seconds32 time) llmqType id then some .present
    else if key = .vote llmqType id then some (.msgHash msgHash)
    else before.read key)

include absent reads

theorem dated_of_voted (dated : Dated before writtenAt) (nonneg : 0 <= time)
    (fits : time < 2 ^ 32) :
    Dated after fun otherType otherId =>
      if otherType = llmqType /\ otherId = id then time else writtenAt otherType otherId := by
  have votes : ∀ otherType otherId, after.read (.vote otherType otherId) =
    if otherType = llmqType /\ otherId = id then some (.msgHash msgHash)
    else before.read (.vote otherType otherId) := by
    intro otherType otherId
    rw [reads]
    simp
  have times : ∀ seconds otherType otherId value,
    after.read (.voteTime seconds otherType otherId) = some value ->
    (seconds = seconds32 time /\ otherType = llmqType /\ otherId = id) \/
      (before.read (.voteTime seconds otherType otherId) = some value /\ ¬ (otherType = llmqType /\ otherId = id)) := by
    intro seconds otherType otherId value stored
    rw [reads] at stored
    by_cases same : voteTime seconds otherType otherId = .voteTime (seconds32 time) llmqType id
    · exact .inl (voteTime.inj same)
    · rw [if_neg same] at stored
      refine .inr ⟨stored, ?_⟩
      rintro ⟨rfl, rfl⟩
      exact dated.voted seconds otherType otherId value stored absent
  refine ⟨?_, ?_, ?_⟩
  · intro otherType otherId value stored
    rw [votes] at stored
    split at stored
    · exact ⟨msgHash, (Option.some.inj stored).symm⟩
    · exact dated.typed otherType otherId value stored
  · intro seconds otherType otherId value stored
    rw [votes]
    rcases times seconds otherType otherId value stored with ⟨_, same⟩ | ⟨there, other⟩
    · rw [if_pos same]
      exact nofun
    · rw [if_neg other]
      exact dated.voted seconds otherType otherId value there
  · intro seconds otherType otherId value stored
    rcases times seconds otherType otherId value stored with ⟨rfl, same⟩ | ⟨there, other⟩
    · rw [if_pos same, seconds32, BitVec.toNat_ofInt]
      omega
    · rw [if_neg other]
      exact dated.dated seconds otherType otherId value there

theorem Kept.voted {record : SignRecord} (kept : Kept maxAge clock before writtenAt record)
    (later : clock <= time) :
    Kept maxAge time after (fun otherType otherId =>
      if otherType = llmqType /\ otherId = id then time else writtenAt otherType otherId) record := by
  rcases kept with expired | ⟨there, written⟩
  · exact .inl (expired.trans later)
  have other : ¬ (record.llmqType = llmqType /\ record.id = id) := by
    rintro ⟨rfl, rfl⟩
    rw [absent] at there
    cases there
  refine .inr ⟨?_, ?_⟩
  · rw [reads, if_neg (fun same => other (vote.inj same))]
    exact there
  · dsimp only
    rw [if_neg other]
    exact written

end

theorem remembers_asyncSignIfMember (remembers : run.Remembers env) {view : SigningView}
    {quorumHash : Uint256} {allowReSign : Bool} {adjustedTime : Int}
    (later : run.clock <= adjustedTime) (fits : adjustedTime < 2 ^ 32) :
    (run.step env (.asyncSignIfMember view llmqType id msgHash quorumHash allowReSign adjustedTime)).Remembers
      env := by
  have nonneg : 0 <= adjustedTime := remembers.clock.trans later
  rw [step]
  generalize returned :
    run.manager.asyncSignIfMember view llmqType id msgHash quorumHash allowReSign adjustedTime = outcome
  rcases asyncSignIfMember_cases run.manager view llmqType id msgHash quorumHash allowReSign
    adjustedTime returned
    with ⟨silent, unvoted, unchanged⟩ | ⟨quorum, signs, unvoted, unchanged, voted, same⟩ |
      ⟨quorum, signs, voted, unvoted, reads⟩
  · simp only [silent, unvoted, Bool.false_eq_true, false_and, if_false,
      Option.toList_none, map_nil, append_nil]
    refine ⟨nonneg, ?_, ?_, remembers.agree⟩
    · rw [unchanged]
      exact remembers.dated
    · intro record member
      rw [unchanged]
      exact (remembers.kept record member).later later
  · have stored : run.manager.db.db.read (.vote llmqType id) = some (.msgHash msgHash) := by
      rw [same]
      cases stored : run.manager.db.db.read (.vote llmqType id) with
      | none => simp [hasVotedOnId, has, stored] at voted
      | some value =>
        rcases remembers.dated.typed llmqType id value stored with ⟨msgHash, rfl⟩
        simp [getVoteForId, stored]
    simp only [signs, unvoted, Bool.false_eq_true, false_and, if_false,
      Option.toList_some, map_cons, map_nil]
    refine ⟨nonneg, ?_, ?_, ?_⟩
    · rw [unchanged]
      exact remembers.dated
    · intro record member
      rw [unchanged]
      rcases mem_append.mp member with old | new
      · exact (remembers.kept record old).later later
      · rw [mem_singleton.mp new]
        exact .inr ⟨stored, rfl⟩
    · refine pairwise_append.mpr ⟨remembers.agree, pairwise_singleton _ _, ?_⟩
      intro earlier old record new
      rw [mem_singleton.mp new]
      exact agree_of_kept (remembers.kept earlier old) later (.inr stored)
  · rw [hasVotedOnId, has, Option.isSome_eq_false_iff, Option.isNone_iff_eq_none] at unvoted
    simp only [signs, voted, true_and, and_self, if_true, Option.toList_some, map_cons, map_nil]
    refine ⟨nonneg, dated_of_voted unvoted reads remembers.dated nonneg fits, ?_, ?_⟩
    · intro record member
      rcases mem_append.mp member with old | new
      · exact (remembers.kept record old).voted unvoted reads later
      · rw [mem_singleton.mp new]
        refine .inr ⟨?_, if_pos ⟨rfl, rfl⟩⟩
        rw [reads, if_neg nofun, if_pos rfl]
    · refine pairwise_append.mpr ⟨remembers.agree, pairwise_singleton _ _, ?_⟩
      intro earlier old record new
      rw [mem_singleton.mp new]
      exact agree_of_kept (remembers.kept earlier old) later (.inl unvoted)

theorem remembers_step (run : VoteRun) (event : SigningEvent) (remembers : run.Remembers env)
    (sound : ClockSound env run event) : (run.step env event).Remembers env := by
  cases event with
  | asyncSignIfMember _ llmqType id _ _ _ adjustedTime =>
    exact remembers_asyncSignIfMember env remembers sound.1 sound.2
  | processRecoveredSig recoveredSig adjustedTime =>
    exact remembers.congr (sameVotes_processRecoveredSig env.hashes run.manager recoveredSig adjustedTime)
  | truncateRecoveredSig llmqType id =>
    exact remembers.congr (sameVotes_truncateRecoveredSig env.hashes run.manager.db llmqType id)
  | cleanup _ => exact remembers_cleanup env remembers sound
  | restart => exact remembers_restart env remembers

/-- While the clock is sound, no two messages of one request are signed before the vote for the
first is too old. -/
theorem signed_agree (events : List SigningEvent)
    (sound : EveryStep (step env) (ClockSound env) (start env) events) :
    (events.foldl (step env) (start env)).signed.Pairwise (Agree env.maxAge) :=
  (EveryStep.last (remembers_step env) (remembers_start env) sound).agree

def sampleHashes : SigningHashes where
  getHash _ := 0
  buildSignHash _ _ _ _ := 0

theorem votesIndexed_empty : VotesIndexed empty where
  typed _ _ _ stored := absurd stored (by rw [read_empty]; exact nofun)
  voted _ _ _ _ stored := absurd stored (by rw [read_empty]; exact nofun)
  once _ _ _ _ _ _ stored := absurd stored (by rw [read_empty]; exact nofun)

/-- A node without an earlier version. -/
def sampleEnv (maxAge : Int) : VoteEnv where
  hashes := sampleHashes
  oldDb := OrderedStore.empty
  oldDb_indexed := votesIndexed_empty
  maxAge := maxAge

/-- The masternode is the only member of the quorum. -/
def sampleView : SigningView where
  fMasternodeMode := true
  proTxHash := 1
  selectQuorumForSigning llmqType _ := some {
    type := llmqType, quorumHash := 2, quorumPublicKey := 0, threshold := 1, members := [1], validMembers := [true]
    hasVerificationVector := false, buildPubKeyShare := fun _ => 0 }
  getQuorum _ _ := none

def askedFor (msgHash : Uint256) (allowReSign : Bool) (adjustedTime : Int) : SigningEvent :=
  .asyncSignIfMember sampleView 1 7 msgHash 0 allowReSign adjustedTime

def cleanupAt (seconds : Int) : SigningEvent :=
  .cleanup {
    millisBefore := seconds * 1000, recoveredSigs := seconds, votes := seconds, millisAfter := seconds * 1000 }

/-- Another message is refused after a cleanup and a restart, until a week is over. -/
def weekEvents : List SigningEvent :=
  [askedFor 5 false 1700000000, cleanupAt 1700000010, .restart, askedFor 6 false 1700000020,
    askedFor 5 true 1700000030, cleanupAt 1700700000, askedFor 6 false 1700700001]

theorem signed_agree_week :
    (weekEvents.foldl (step (sampleEnv 604800)) (start (sampleEnv 604800))).signed =
      [⟨1, 7, 5, 1700000000, 1700000000⟩, ⟨1, 7, 5, 1700000030, 1700000000⟩,
        ⟨1, 7, 6, 1700700001, 1700700001⟩] /\
    (weekEvents.foldl (step (sampleEnv 604800)) (start (sampleEnv 604800))).signed.Pairwise (Agree 604800) :=
  ⟨by decide +kernel, signed_agree (sampleEnv 604800) weekEvents (by decide +kernel)⟩

def wrappedEvents : List SigningEvent :=
  [askedFor 5 false 1700000000, cleanupAt 1700000010, askedFor 6 false 1700000020]

/-- With `-maxrecsigsage=2000000000` the limit of the cleanup wraps to a time in the far future, so
a vote is forgotten ten seconds after it was written. -/
theorem signed_disagree_wrapped :
    (wrappedEvents.foldl (step (sampleEnv 2000000000)) (start (sampleEnv 2000000000))).signed =
      [⟨1, 7, 5, 1700000000, 1700000000⟩, ⟨1, 7, 6, 1700000020, 1700000020⟩] /\
    ¬ (wrappedEvents.foldl (step (sampleEnv 2000000000)) (start (sampleEnv 2000000000))).signed.Pairwise
      (Agree 2000000000) := by
  have signed :
    (wrappedEvents.foldl (step (sampleEnv 2000000000)) (start (sampleEnv 2000000000))).signed =
    [⟨1, 7, 5, 1700000000, 1700000000⟩, ⟨1, 7, 6, 1700000020, 1700000020⟩] := by
    decide +kernel
  refine ⟨signed, fun agree => ?_⟩
  rw [signed] at agree
  have pair := rel_of_pairwise_cons agree (.head _)
  exact absurd (pair rfl rfl (by decide)) (by decide)

end VoteRun
end StakeCubeCoin.Llmq
