import StakeCubeCoin.Governance.ObjectVotes

namespace StakeCubeCoin.Governance

open Primitives CGovernanceObjectVoteFile CGovernanceObject List CGovernanceVote

/-!
# Orphan votes

A vote that arrives before its object waits in `cmmapOrphanVotes`, a `CacheMultiMap` of
`cachemultimap.h`, until `CGovernanceManager::AddGovernanceObject` of
`governance/governance.cpp` stores the object and calls `CheckOrphanVotes`.

`AddGovernanceObject` puts a copy of the object into `mapObjects` and hands the original, not
the copy, to `CheckOrphanVotes`.  The votes are counted in the original and taken from the cache.
-/

/-! ## The cache of orphan votes -/

/-- `CacheMultiMap`.  The index of a key is passed through in the order of its values; a key
without values is not in the index. -/
structure CacheMultiMap (Key Value : Type) where
  nMaxSize : Nat
  listItems : List (Key × Value) := []
  mapIndex : Key -> List Value := fun _ => []

namespace CacheMultiMap

variable {Key Value : Type} [DecidableEq Key] [DecidableEq Value] (less : Value -> Value -> Bool)

/-- Two keys of a `std::map` that the order does not tell apart. -/
def equivalent (left right : Value) : Bool :=
  !less left right && !less right left

variable (cache : CacheMultiMap Key Value) (key : Key)

def setIndex (values : List Value) : Key -> List Value :=
  fun other => if other = key then values else cache.mapIndex other

def pruneLast : CacheMultiMap Key Value :=
  match cache.listItems.getLast? with
  | none => cache
  | some (key, value) =>
    { cache with
      listItems := cache.listItems.dropLast
      mapIndex := cache.setIndex key
        ((cache.mapIndex key).filter fun held => !equivalent less held value) }

/-- `Insert`: whether the value is new, and the cache afterwards. -/
def insert (value : Value) : Bool × CacheMultiMap Key Value :=
  if (cache.mapIndex key).any fun held => equivalent less held value then (false, cache)
  else
    let pruned := if cache.listItems.length = cache.nMaxSize then cache.pruneLast less else cache
    let held := pruned.mapIndex key
    (true, { pruned with
        listItems := (key, value) :: pruned.listItems
        mapIndex := pruned.setIndex key
          (held.takeWhile (fun other => less other value) ++ value ::
            held.dropWhile (fun other => less other value)) })

def getAll : List Value :=
  cache.mapIndex key

def erase (value : Value) : CacheMultiMap Key Value :=
  match (cache.mapIndex key).find? fun held => equivalent less held value with
  | none => cache
  | some found =>
    { cache with
      listItems := cache.listItems.erase (key, found)
      mapIndex := cache.setIndex key ((cache.mapIndex key).erase found) }

end CacheMultiMap

/-- `vote_time_pair_t`: a vote and the time at which it expires. -/
abbrev VoteTimePair := CGovernanceVote × Int

def outPointLess (left right : COutPoint) : Bool :=
  decide (left.hash < right.hash) || (left.hash == right.hash && decide (left.n < right.n))

/-- `operator<` on votes.  Every comparison but the last asks for less and then for equality of
the same fields. -/
def CGovernanceVote.less (vote1 vote2 : CGovernanceVote) : Bool :=
  if !outPointLess vote1.masternodeOutpoint vote2.masternodeOutpoint then false
  else if !(vote1.masternodeOutpoint == vote2.masternodeOutpoint && decide (vote1.nParentHash < vote2.nParentHash)) then
    false
  else if !(vote1.nParentHash == vote2.nParentHash && decide (vote1.nVoteOutcome < vote2.nVoteOutcome)) then false
  else if !(vote1.nVoteOutcome == vote2.nVoteOutcome && vote1.nVoteSignal == vote2.nVoteSignal) then
    false
  else vote1.nVoteSignal == vote2.nVoteSignal && decide (vote1.nTime < vote2.nTime)

/-- `operator<` on pairs compares the votes. -/
def votePairLess (left right : VoteTimePair) : Bool :=
  left.1.less right.1

theorem CGovernanceVote.less_eq_false (vote1 vote2 : CGovernanceVote) :
    vote1.less vote2 = false := by
  unfold less
  split
  · rfl
  next less =>
  split
  · rfl
  · next sameOutpoint =>
    simp only [Bool.not_eq_true', Bool.not_eq_false, Bool.and_eq_true, beq_iff_eq] at less sameOutpoint
    rw [sameOutpoint.1] at less
    simp [outPointLess] at less

/-- So an orphan vote is kept exactly if no other one waits for the same object, whoever cast it.  A
vote that is not kept changes nothing. -/
theorem insert_orphan_iff (cache : CacheMultiMap Uint256 VoteTimePair) (key : Uint256)
    (pair : VoteTimePair) :
    ((cache.insert votePairLess key pair).1 = true <-> cache.getAll key = []) /\
      ((cache.insert votePairLess key pair).1 = false -> (cache.insert votePairLess key pair).2 = cache) := by
  have alike : ∀ held : VoteTimePair, CacheMultiMap.equivalent votePairLess held pair = true := by
    intro held
    simp [CacheMultiMap.equivalent, votePairLess, less_eq_false]
  unfold CacheMultiMap.insert CacheMultiMap.getAll
  cases cache.mapIndex key <;> simp [alike]

variable {getHash : VoteContent -> Uint256}

/-- The part of `CGovernanceManager` that objects and their votes use. -/
structure CGovernanceManager (getHash : VoteContent -> Uint256) where
  mapObjects : Uint256 -> Option (CGovernanceObject getHash)
  cmmapOrphanVotes : CacheMultiMap Uint256 VoteTimePair

/-- What `AddGovernanceObject` looks up: the check of the object, the triggers, the number of valid
masternodes and the clock, read at three places. -/
structure AddView (getHash : VoteContent -> Uint256) where
  params : ConsensusParams
  nMnCount : Nat
  isValidLocally : CGovernanceObject getHash -> Bool
  addNewTrigger : Uint256 -> Bool
  sentinelTime : Int
  deletionTime : Int
  orphanTime : Int

/-- One round of the loop of `CheckOrphanVotes`, on the object and the cache. -/
def checkOrphanVote (rules : VoteRules) (nHash : Uint256) (nNow : Int)
    (state : CGovernanceObject getHash × CacheMultiMap Uint256 VoteTimePair)
    (pairVote : VoteTimePair) :
    CGovernanceObject getHash × CacheMultiMap Uint256 VoteTimePair :=
  if pairVote.2 < nNow then (state.1, state.2.erase votePairLess nHash pairVote)
  else
    let result := state.1.processVote rules pairVote.1 false nNow
    if result.refused.isNone then (result.object, state.2.erase votePairLess nHash pairVote)
    else (result.object, state.2)

/-- `CheckOrphanVotes`, which changes the object that it is given. -/
def CGovernanceManager.checkOrphanVotes (rules : VoteRules) (manager : CGovernanceManager getHash)
    (govobj : CGovernanceObject getHash) (nNow : Int) :
    CGovernanceObject getHash × CGovernanceManager getHash :=
  let vecVotePairs := manager.cmmapOrphanVotes.getAll govobj.hash
  let checked := vecVotePairs.foldl (checkOrphanVote rules govobj.hash nNow) (govobj,
    manager.cmmapOrphanVotes)
  (checked.1, { manager with cmmapOrphanVotes := checked.2 })

/-- The exits of `AddGovernanceObject`. -/
inductive AddOutcome where
  | invalid
  | known
  | invalidTrigger
  | added
  deriving DecidableEq

/-- The exit of `AddGovernanceObject`, the object that was passed by reference, and the manager. -/
structure AddResult (getHash : VoteContent -> Uint256) where
  outcome : AddOutcome
  govobj : CGovernanceObject getHash
  manager : CGovernanceManager getHash

def CGovernanceManager.withObject (manager : CGovernanceManager getHash)
    (object : CGovernanceObject getHash) :
    CGovernanceManager getHash :=
  { manager with mapObjects := fun nHash => if nHash = object.hash then some object else manager.mapObjects nHash }

def CGovernanceManager.addGovernanceObject (view : AddView getHash) (rules : VoteRules)
    (manager : CGovernanceManager getHash) (govobj : CGovernanceObject getHash) :
    AddResult getHash :=
  let updated := govobj.updateSentinelVariables view.params view.nMnCount view.sentinelTime
  if view.isValidLocally updated = false then ⟨.invalid, updated, manager⟩
  else if (manager.mapObjects updated.hash).isSome then ⟨.known, updated, manager⟩
  else
    let stored := manager.withObject updated
    if updated.nObjectType == GOVERNANCE_OBJECT_TRIGGER && !view.addNewTrigger updated.hash then
      ⟨.invalidTrigger, updated, stored.withObject (updated.prepareDeletion view.deletionTime)⟩
    else
      let checked := stored.checkOrphanVotes rules updated view.orphanTime
      ⟨.added, checked.1, checked.2⟩

/-! ## What becomes of the orphan votes -/

/-- An object after votes arrived one after another; those that have expired are not looked at. -/
def CGovernanceObject.afterVotes (rules : VoteRules) (object : CGovernanceObject getHash)
    (nNow : Int) (pairs : List VoteTimePair) : CGovernanceObject getHash :=
  pairs.foldl (fun current pair =>
    if pair.2 < nNow then current else (current.processVote rules pair.1 false nNow).object) object

/-- The object that is stored knows the votes that it would know if they had arrived after it,
and it has their tallies. -/
structure CountsVotes (stored arrived : CGovernanceObject getHash) : Prop where
  known : ∀ vote ∈ arrived.fileVotes.listVotes, ∃ listed,
    listed ∈ stored.fileVotes.listVotes /\ listed.toVoteContent = vote.toVoteContent
  yes : ∀ eSignal, stored.getYesCount eSignal = arrived.getYesCount eSignal
  no : ∀ eSignal, stored.getNoCount eSignal = arrived.getNoCount eSignal
  abstain : ∀ eSignal, stored.getAbstainCount eSignal = arrived.getAbstainCount eSignal

namespace CGovernanceObject

variable (start current : CGovernanceObject getHash)

/-- A vote that the object knew at the start is still listed, or a later vote of the same
masternode on the same signal counts. -/
def Remembers : Prop :=
  ∀ vote ∈ start.fileVotes.listVotes,
    (∃ listed ∈ current.fileVotes.listVotes, listed.toVoteContent = vote.toVoteContent) \/
      vote.nTime < (current.currentVote vote.masternodeOutpoint vote.nVoteSignal).nCreationTime

/-- Some vote is listed that the object did not know at the start. -/
def KnowsMore : Prop :=
  ∃ vote ∈ current.fileVotes.listVotes,
    ∀ listed ∈ start.fileVotes.listVotes, listed.toVoteContent ≠ vote.toVoteContent

variable {current start : CGovernanceObject getHash}

theorem Remembers.of_sameVotes {next : CGovernanceObject getHash} (same : SameVotes next current)
    (remembers : Remembers start current) : Remembers start next := by
  intro vote listed
  rw [same.fileVotes, same.current]
  exact remembers vote listed

theorem KnowsMore.of_sameVotes {next : CGovernanceObject getHash} (same : SameVotes next current)
    (more : KnowsMore start current) : KnowsMore start next := by
  rcases more with ⟨vote, listed, new⟩
  exact ⟨vote, by rw [same.fileVotes]; exact listed, new⟩

/-- A vote that is accepted was not known at the start. -/
theorem Remembers.new_of_accepts {rules : VoteRules} {vote : CGovernanceVote}
    (remembers : Remembers start current) (accepts : Accepts rules current vote) :
    ∀ listed ∈ start.fileVotes.listVotes, listed.toVoteContent ≠ vote.toVoteContent := by
  intro listed member same
  rcases remembers listed member with ⟨still, stillListed, sameContent⟩ | overruled
  · have unknown := hasVote_eq_false_iff.mp accepts.unknown still stillListed
    rw [sameContent, same] at unknown
    exact unknown rfl
  have sameOutpoint : listed.masternodeOutpoint = vote.masternodeOutpoint := by rw [same]
  have sameSignal : listed.nVoteSignal = vote.nVoteSignal := by rw [same]
  have sameTime : listed.nTime = vote.nTime := by rw [same]
  rw [sameOutpoint, sameSignal, sameTime] at overruled
  exact absurd accepts.recent (not_le.mpr overruled)

variable (rules : VoteRules)

theorem processVote_remembers
    (remembers : Remembers start current) (vote : CGovernanceVote) (nNow : Int) :
    Remembers start (current.processVote rules vote false nNow).object /\
      (Accepts rules current vote \/ KnowsMore start current ->
        KnowsMore start (current.processVote rules vote false nNow).object) := by
  rcases processVote_cases rules current vote nNow with ⟨accepts, result⟩ | ⟨refuses, _, same⟩
  · rw [result]
    have entered := sameVotes_entered current vote.masternodeOutpoint vote.nVoteSignal
    have unknown := (entered.accepts_iff.mpr accepts).unknown
    constructor
    · intro old listed
      rw [currentVote_recorded, fileVotes_recordVote]
      by_cases sameKey : old.masternodeOutpoint = vote.masternodeOutpoint /\ old.nVoteSignal = vote.nVoteSignal
      · rw [if_pos sameKey]
        rcases remembers old listed with ⟨still, stillListed, sameContent⟩ | overruled
        · by_cases pushedOut : isOldVote vote still = true
          · right
            have older : still.nTime < vote.nTime := by
              simp only [isOldVote, Bool.and_eq_true, decide_eq_true_eq] at pushedOut
              exact pushedOut.2
            have sameTime : still.nTime = old.nTime := by rw [sameContent]
            rw [<- sameTime]
            exact older
          · left
            refine ⟨still, ?_, sameContent⟩
            rw [mem_addVote_iff unknown]
            exact .inr ⟨stillListed, Bool.eq_false_iff.mpr pushedOut⟩
        · right
          rw [sameKey.1, sameKey.2] at overruled
          exact lt_of_lt_of_le overruled accepts.recent
      · rw [if_neg sameKey]
        rcases remembers old listed with ⟨still, stillListed, sameContent⟩ | overruled
        · left
          refine ⟨still, ?_, sameContent⟩
          have kept : isOldVote vote still = false := by
            rw [Bool.eq_false_iff]
            intro pushedOut
            simp only [isOldVote, Bool.and_eq_true, beq_iff_eq] at pushedOut
            rw [sameContent] at pushedOut
            exact sameKey ⟨pushedOut.1.1.1, pushedOut.1.2⟩
          rw [mem_addVote_iff unknown]
          exact .inr ⟨stillListed, kept⟩
        · exact .inr overruled
    · intro _
      refine ⟨vote, ?_, remembers.new_of_accepts accepts⟩
      rw [fileVotes_recordVote, mem_addVote_iff unknown]
      exact .inl rfl
  · refine ⟨remembers.of_sameVotes same, ?_⟩
    rintro (accepts | more)
    · exact absurd accepts refuses
    · exact more.of_sameVotes same

/-- Once a vote has been accepted, the object knows more than it did at the start. -/
theorem knowsMore_afterVotes (nNow : Int) (pairs : List VoteTimePair) :
    ∀ current : CGovernanceObject getHash, Remembers start current ->
      (KnowsMore start current \/ ∃ pair ∈ pairs, ¬ pair.2 < nNow /\ Accepts rules current pair.1) ->
        KnowsMore start (current.afterVotes rules nNow pairs) := by
  induction pairs with
  | nil =>
    rintro current _ (more | ⟨pair, member, _⟩)
    · exact more
    · cases member
  | cons pair _ ih =>
    intro current remembers some
    unfold afterVotes
    rw [foldl_cons]
    by_cases expired : pair.2 < nNow
    · rw [if_pos expired]
      apply ih current remembers
      rcases some with more | ⟨other, member, fresh, accepts⟩
      · exact .inl more
      · rcases mem_cons.mp member with rfl | later
        · exact absurd expired fresh
        · exact .inr ⟨other, later, fresh, accepts⟩
    · rw [if_neg expired]
      rcases processVote_remembers rules remembers pair.1 nNow with ⟨nextRemembers, nextMore⟩
      apply ih _ nextRemembers
      rcases some with more | ⟨other, member, fresh, accepts⟩
      · exact .inl (nextMore (.inr more))
      rcases mem_cons.mp member with rfl | later
      · exact .inl (nextMore (.inl accepts))
      · rcases processVote_cases rules current pair.1 nNow with ⟨firstAccepts, _⟩ | ⟨_, _, same⟩
        · exact .inl (nextMore (.inl firstAccepts))
        · exact .inr ⟨other, later, fresh, same.accepts_iff.mpr accepts⟩

/-- The votes change the tallies or the known votes exactly if one of them is accepted. -/
theorem countsVotes_afterVotes_iff (object : CGovernanceObject getHash) (nNow : Int)
    (pairs : List VoteTimePair) : CountsVotes object (object.afterVotes rules nNow pairs) <->
      ∀ pair ∈ pairs, pair.2 < nNow \/ ¬ Accepts rules object pair.1 := by
  constructor
  · intro counts pair member
    by_contra accepted
    rw [not_or, not_not] at accepted
    have begins : Remembers object object := fun vote listed => .inl ⟨vote, listed, rfl⟩
    rcases knowsMore_afterVotes rules nNow pairs object begins (.inr ⟨pair, member, accepted⟩) with
      ⟨vote, listed, new⟩
    rcases counts.known vote listed with ⟨known, knownListed, same⟩
    exact new known knownListed same
  · intro none
    have same : SameVotes (object.afterVotes rules nNow pairs) object := by
      induction pairs generalizing object with
      | nil => exact SameVotes.refl object
      | cons pair _ ih =>
        unfold afterVotes
        rw [foldl_cons]
        by_cases expired : pair.2 < nNow
        · rw [if_pos expired]
          exact ih object (forall_mem_cons.mp none).2
        rw [if_neg expired]
        have refuses := (none pair (.head _)).resolve_left expired
        rcases processVote_cases rules object pair.1 nNow with ⟨accepts, _⟩ | ⟨_, _, same⟩
        · exact absurd accepts refuses
        refine (ih _ ?_).trans same
        intro other member
        rcases none other (.tail _ member) with old | refused
        · exact .inl old
        · exact .inr fun accepts => refused (same.accepts_iff.mp accepts)
    refine ⟨?_, ?_, ?_, ?_⟩
    · intro vote listed
      rw [same.fileVotes] at listed
      exact ⟨vote, listed, rfl⟩
    · exact fun eSignal => (same.counts eSignal _ (by decide)).symm
    · exact fun eSignal => (same.counts eSignal _ (by decide)).symm
    · exact fun eSignal => (same.counts eSignal _ (by decide)).symm

end CGovernanceObject

namespace CGovernanceManager

/-- The stored object counts the orphan votes if and only if every vote that waited for it has
expired or is refused. -/
theorem orphanVotes_counted_iff (view : AddView getHash) (rules : VoteRules)
    (manager : CGovernanceManager getHash) (govobj : CGovernanceObject getHash)
    (added : (manager.addGovernanceObject view rules govobj).outcome = .added) : (∃ stored,
      (manager.addGovernanceObject view rules govobj).manager.mapObjects govobj.hash =
        some stored /\ CountsVotes stored
          ((govobj.updateSentinelVariables view.params view.nMnCount view.sentinelTime).afterVotes rules
            view.orphanTime (manager.cmmapOrphanVotes.getAll govobj.hash))) <->
      ∀ pair ∈ manager.cmmapOrphanVotes.getAll govobj.hash,
        pair.2 < view.orphanTime \/ ¬ CGovernanceObject.Accepts rules govobj pair.1 := by
  have found : (manager.addGovernanceObject view rules govobj).manager.mapObjects
      (govobj.updateSentinelVariables view.params view.nMnCount view.sentinelTime).hash =
      some (govobj.updateSentinelVariables view.params view.nMnCount view.sentinelTime) := by
    unfold addGovernanceObject at added ⊢
    simp only at added ⊢
    split at added
    · cases added
    next valid =>
    split at added
    · cases added
    next unknown =>
    split at added
    · cases added
    next accepted =>
    rw [if_neg valid, if_neg unknown, if_neg accepted]
    simp [checkOrphanVotes, withObject]
  have hash : (govobj.updateSentinelVariables view.params view.nMnCount view.sentinelTime).hash =
    govobj.hash := by
    unfold updateSentinelVariables
    split <;> rfl
  rw [hash] at found
  have same : SameVotes (govobj.updateSentinelVariables view.params view.nMnCount view.sentinelTime) govobj := by
    unfold updateSentinelVariables
    split
    · exact SameVotes.refl govobj
    · exact ⟨rfl, rfl, fun _ _ => rfl, fun _ _ _ => rfl⟩
  have accepted := countsVotes_afterVotes_iff rules
    (govobj.updateSentinelVariables view.params view.nMnCount view.sentinelTime) view.orphanTime
    (manager.cmmapOrphanVotes.getAll govobj.hash)
  simp only [same.accepts_iff] at accepted
  rw [<- accepted]
  constructor
  · rintro ⟨stored, atHash, counts⟩
    cases found.symm.trans atHash
    exact counts
  · exact fun counts => ⟨_, found, counts⟩

/-! A proposal for which one masternode has voted before it arrived. -/

def earlyVote : CGovernanceVote where
  masternodeOutpoint := ⟨9, 0⟩
  nParentHash := 5
  nVoteOutcome := VOTE_OUTCOME_YES
  nVoteSignal := VOTE_SIGNAL_FUNDING
  nTime := 1000

def earlyRules : VoteRules where
  getMNByCollateral := fun _ => some 3
  isValid := fun _ _ => true
  toStringShort := fun _ => ""
  hashToString := fun _ => ""
  convertSignalToString := fun _ => ""

def earlyHash (content : VoteContent) : Uint256 :=
  BitVec.ofInt 256 content.nTime

def earlyView (orphanTime : Int) : AddView earlyHash where
  params := .main
  nMnCount := 30
  isValidLocally := fun _ => true
  addNewTrigger := fun _ => true
  sentinelTime := 1100
  deletionTime := 1100
  orphanTime := orphanTime

/-- The manager after the vote arrived; the vote expires at 1600. -/
def earlyManager : CGovernanceManager earlyHash where
  mapObjects := fun _ => none
  cmmapOrphanVotes :=
    ((CacheMultiMap.mk 1000000 [] fun _ => []).insert votePairLess 5 (earlyVote, 1600)).2

def earlyProposal : CGovernanceObject earlyHash where
  hash := 5
  nObjectType := GOVERNANCE_OBJECT_PROPOSAL

/-- The vote has expired when the proposal arrives. -/
theorem orphanVotes_counted_expired :
    (earlyManager.addGovernanceObject (earlyView 1601) earlyRules earlyProposal).outcome = .added /\
      ∃ stored,
        (earlyManager.addGovernanceObject (earlyView 1601) earlyRules earlyProposal).manager.mapObjects
          earlyProposal.hash = some stored /\ CountsVotes stored
            ((earlyProposal.updateSentinelVariables (earlyView 1601).params (earlyView 1601).nMnCount
              (earlyView 1601).sentinelTime).afterVotes earlyRules (earlyView 1601).orphanTime
                (earlyManager.cmmapOrphanVotes.getAll earlyProposal.hash)) := by
  have added : (earlyManager.addGovernanceObject (earlyView 1601) earlyRules earlyProposal).outcome = .added := by
    decide +kernel
  refine ⟨added, (orphanVotes_counted_iff (earlyView 1601) earlyRules earlyManager earlyProposal added).mpr ?_⟩
  have waiting : ∀ pair ∈ earlyManager.cmmapOrphanVotes.getAll earlyProposal.hash,
    pair.2 < 1601 := by
    decide +kernel
  exact fun pair member => .inl (waiting pair member)

/-- The vote has not expired.  It would count, it is taken from the cache, and the stored
proposal does not have it. -/
theorem orphan_vote_lost :
    let result := earlyManager.addGovernanceObject (earlyView 1100) earlyRules earlyProposal
    result.outcome = .added /\
      (result.manager.mapObjects 5).map (fun stored => stored.getYesCount VOTE_SIGNAL_FUNDING) =
      some 0 /\ result.govobj.getYesCount VOTE_SIGNAL_FUNDING = 1 /\
      (earlyProposal.afterVotes earlyRules 1100 (earlyManager.cmmapOrphanVotes.getAll 5)).getYesCount
        VOTE_SIGNAL_FUNDING = 1 /\
      result.manager.cmmapOrphanVotes.getAll 5 = [] := by
  decide +kernel

end CGovernanceManager
end StakeCubeCoin.Governance
