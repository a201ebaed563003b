import StakeCubeCoin.Library.EntryList
import StakeCubeCoin.Governance.Superblock

namespace StakeCubeCoin.Governance

open Primitives Library EntryList List

/-!
# Votes on governance objects

`CGovernanceVote` of `governance/vote.{h,cpp}`, `CGovernanceObjectVoteFile` of
`governance/votedb.{h,cpp}`, and `CGovernanceObject::ProcessVote` with the counts of
`governance/object.{h,cpp}`.

The hash of a vote covers everything but the signature; any function of the rest may be the
hash.  An object keeps the votes that it knows in its vote file, and for every masternode and
every signal the vote that counts.  The masternode list and the check of the signature are
looked up elsewhere.  `mmetaman.AddGovernanceVote` always succeeds and its counters are not
read here; neither is the cache of invalid votes.
-/

/-- The fields that `CGovernanceVote::GetHash` covers and that `operator==` compares.  The
outcome and the signal are the values of their enumerations. -/
structure VoteContent where
  masternodeOutpoint : COutPoint
  nParentHash : Uint256
  nVoteOutcome : Nat
  nVoteSignal : Nat
  nTime : Int
  deriving DecidableEq

structure CGovernanceVote extends VoteContent where
  vchSig : List UInt8 := []
  deriving DecidableEq

def VOTE_OUTCOME_NONE : Nat := 0
def VOTE_OUTCOME_YES : Nat := 1
def VOTE_OUTCOME_NO : Nat := 2
def VOTE_OUTCOME_ABSTAIN : Nat := 3

def VOTE_SIGNAL_NONE : Nat := 0
def VOTE_SIGNAL_FUNDING : Nat := 1
def VOTE_SIGNAL_VALID : Nat := 2
def VOTE_SIGNAL_DELETE : Nat := 3
def VOTE_SIGNAL_ENDORSED : Nat := 4

def MAX_SUPPORTED_VOTE_SIGNAL : Nat := VOTE_SIGNAL_ENDORSED

def GOVERNANCE_OBJECT_PROPOSAL : Nat := 1
def GOVERNANCE_OBJECT_TRIGGER : Nat := 2

def GOVERNANCE_UPDATE_MIN : Int := 60 * 60

section

variable {getHash : VoteContent -> Uint256}

/-- `CGovernanceObjectVoteFile`.  The index has the hashes of the listed votes, which differ. -/
structure CGovernanceObjectVoteFile (getHash : VoteContent -> Uint256) where
  listVotes : List CGovernanceVote
  distinct : (listVotes.map fun vote => getHash vote.toVoteContent).Nodup

namespace CGovernanceObjectVoteFile

def empty : CGovernanceObjectVoteFile getHash where
  listVotes := []
  distinct := nodup_nil

variable (file : CGovernanceObjectVoteFile getHash)

def hasVote (nHash : Uint256) : Bool :=
  file.listVotes.any fun vote => getHash vote.toVoteContent == nHash

/-- The test of `RemoveOldVotes`. -/
def isOldVote (vote old : CGovernanceVote) : Bool :=
  old.masternodeOutpoint == vote.masternodeOutpoint && old.nParentHash == vote.nParentHash &&
    old.nVoteSignal == vote.nVoteSignal && decide (old.nTime < vote.nTime)

def removeOldVotes (vote : CGovernanceVote) : CGovernanceObjectVoteFile getHash where
  listVotes := file.listVotes.filter fun old => !isOldVote vote old
  distinct := file.distinct.sublist (filter_sublist.map _)

variable {file : CGovernanceObjectVoteFile getHash}

theorem hasVote_eq_false_iff {nHash : Uint256} : file.hasVote nHash = false <->
      ∀ vote ∈ file.listVotes, getHash vote.toVoteContent ≠ nHash := by
  unfold hasVote
  rw [any_eq_false]
  simp only [beq_iff_eq, ne_eq]

def addVote (vote : CGovernanceVote) : CGovernanceObjectVoteFile getHash :=
  if known : file.hasVote (getHash vote.toVoteContent) = true then file
  else
    removeOldVotes
      { listVotes := vote :: file.listVotes
        distinct := by
          rw [map_cons, nodup_cons]
          refine ⟨?_, file.distinct⟩
          intro member
          rcases mem_map.mp member with ⟨other, listed, same⟩
          exact hasVote_eq_false_iff.mp (Bool.eq_false_iff.mpr known) other listed same }
      vote

/-- A new vote pushes the older votes of the same masternode on the same signal out. -/
theorem mem_addVote_iff {vote : CGovernanceVote}
    (unknown : file.hasVote (getHash vote.toVoteContent) = false) (other : CGovernanceVote) :
    other ∈ (file.addVote vote).listVotes <->
      other = vote \/ (other ∈ file.listVotes /\ isOldVote vote other = false) := by
  have notOwn : isOldVote vote vote = false := by
    simp [isOldVote]
  unfold addVote
  rw [dif_neg (by rw [unknown]; exact Bool.false_ne_true)]
  unfold removeOldVotes
  simp only [mem_filter, mem_cons, Bool.not_eq_true']
  constructor
  · rintro ⟨rfl | listed, kept⟩
    · exact .inl rfl
    · exact .inr ⟨listed, kept⟩
  · rintro (rfl | ⟨listed, kept⟩)
    · exact ⟨.inl rfl, notOwn⟩
    · exact ⟨.inr listed, kept⟩

end CGovernanceObjectVoteFile
end

/-- `vote_instance_t`. -/
structure VoteInstance where
  eOutcome : Nat := VOTE_OUTCOME_NONE
  nTime : Int := 0
  nCreationTime : Int := 0
  deriving DecidableEq

/-- `vote_rec_t`: an instance for every signal. -/
abbrev VoteRec := List (Nat × VoteInstance)

/-- `CGovernanceObject`.  The hash is computed from fields that are not looked at here. -/
structure CGovernanceObject (getHash : VoteContent -> Uint256) where
  hash : Uint256
  nObjectType : Nat
  nDeletionTime : Int := 0
  fCachedFunding : Bool := false
  fCachedValid : Bool := true
  fCachedDelete : Bool := false
  fCachedEndorsed : Bool := false
  fDirtyCache : Bool := true
  mapCurrentMNVotes : List (COutPoint × VoteRec) := []
  fileVotes : CGovernanceObjectVoteFile getHash := .empty

/-- `governance_exception_type_enum_t`. -/
inductive GovernanceExceptionType where
  | none
  | warning
  | permanentError
  | temporaryError
  deriving DecidableEq

structure CGovernanceException where
  message : String
  eType : GovernanceExceptionType
  nNodePenalty : Nat := 0
  deriving DecidableEq

/-- What is looked up for a vote: the masternode list at the tip, the check of the vote itself,
and the texts of outpoints, hashes and signals. -/
structure VoteRules where
  getMNByCollateral : COutPoint -> Option Uint256
  isValid : CGovernanceVote -> Bool -> Bool
  toStringShort : COutPoint -> String
  hashToString : Uint256 -> String
  convertSignalToString : Nat -> String

/-- The object after `ProcessVote`, and the exception if the vote was not accepted. -/
structure VoteResult (getHash : VoteContent -> Uint256) where
  object : CGovernanceObject getHash
  refused : Option CGovernanceException

namespace CGovernanceObject

variable {getHash : VoteContent -> Uint256}

variable (object : CGovernanceObject getHash) (outpoint : COutPoint) (eSignal : Nat)

/-- The counted vote of a masternode for a signal, if there is an entry. -/
def voteInstance : Option VoteInstance :=
  (find object.mapCurrentMNVotes outpoint).bind fun record => find record eSignal

/-- The counted vote as `ProcessVote` reads it, after it has made an entry. -/
def currentVote : VoteInstance :=
  (object.voteInstance outpoint eSignal).getD {}

/-- The entry for a masternode that `ProcessVote` makes. -/
def withRecord : CGovernanceObject getHash :=
  { object with mapCurrentMNVotes := emplace object.mapCurrentMNVotes outpoint [] }

/-- The entry for a signal that `ProcessVote` makes in the record of a masternode. -/
def withInstance : CGovernanceObject getHash :=
  { object with
    mapCurrentMNVotes := modify object.mapCurrentMNVotes outpoint fun record =>
      emplace record eSignal {} }

variable (vote : CGovernanceVote) (nVoteTimeUpdate : Int)

/-- The end of `ProcessVote`, for a vote that is accepted. -/
def recordVote : CGovernanceObject getHash :=
  { object with
    mapCurrentMNVotes := modify object.mapCurrentMNVotes vote.masternodeOutpoint fun record =>
      modify record vote.nVoteSignal fun _ =>
        { eOutcome := vote.nVoteOutcome, nTime := nVoteTimeUpdate, nCreationTime := vote.nTime }
    fileVotes := object.fileVotes.addVote vote
    fDirtyCache := true }

/-- `ProcessVote`.  The votes are compared with the entry that is there or that has just been
made. -/
def processVote (rules : VoteRules) (object : CGovernanceObject getHash) (vote : CGovernanceVote)
    (rateChecksEnabled : Bool) (nNow : Int) : VoteResult getHash :=
  let outpointText := rules.toStringShort vote.masternodeOutpoint
  let hashText := rules.hashToString object.hash
  if object.fileVotes.hasVote (getHash vote.toVoteContent) then
    ⟨object, some ⟨"CGovernanceObject::ProcessVote -- Already known valid vote", .none, 0⟩⟩
  else
    match rules.getMNByCollateral vote.masternodeOutpoint with
    | none =>
      ⟨object, some ⟨"CGovernanceObject::ProcessVote -- Masternode " ++ outpointText ++ " not found",
        .permanentError, 20⟩⟩
    | some _ =>
      let recorded := object.withRecord vote.masternodeOutpoint
      let eSignal := vote.nVoteSignal
      if eSignal = VOTE_SIGNAL_NONE then
        ⟨recorded, some ⟨"CGovernanceObject::ProcessVote -- Vote signal: none", .warning, 0⟩⟩
      else if MAX_SUPPORTED_VOTE_SIGNAL < eSignal then
        ⟨recorded, some ⟨"CGovernanceObject::ProcessVote -- Unsupported vote signal: " ++
          rules.convertSignalToString eSignal, .permanentError, 20⟩⟩
      else
        let entered := recorded.withInstance vote.masternodeOutpoint eSignal
        let current := object.currentVote vote.masternodeOutpoint eSignal
        if vote.nTime < current.nCreationTime then
          ⟨entered, some ⟨"CGovernanceObject::ProcessVote -- Obsolete vote", .none, 0⟩⟩
        else if vote.nTime = current.nCreationTime /\ vote.nVoteOutcome < current.eOutcome then
          ⟨entered, some ⟨"CGovernanceObject::ProcessVote -- Invalid vote, same timestamp for the different outcome, rejected",
            .none, 0⟩⟩
        else if rateChecksEnabled && decide (nNow - current.nTime < GOVERNANCE_UPDATE_MIN) then
          ⟨entered, some ⟨"CGovernanceObject::ProcessVote -- Masternode voting too often, MN outpoint = " ++
            outpointText ++ ", governance object hash = " ++ hashText ++ ", time delta = " ++
            toString (nNow - current.nTime), .temporaryError, 0⟩⟩
        else
          let onlyVotingKeyAllowed :=
            object.nObjectType == GOVERNANCE_OBJECT_PROPOSAL && eSignal == VOTE_SIGNAL_FUNDING
          if rules.isValid vote onlyVotingKeyAllowed = false then
            ⟨entered, some ⟨"CGovernanceObject::ProcessVote -- Invalid vote, MN outpoint = " ++ outpointText ++
              ", governance object hash = " ++ hashText ++ ", vote hash = " ++
              rules.hashToString (getHash vote.toVoteContent), .permanentError, 20⟩⟩
          else
            ⟨entered.recordVote vote (if rateChecksEnabled then nNow else current.nTime), none⟩

variable (eVoteSignalIn : Nat)

def countMatchingVotes (eVoteOutcomeIn : Nat) : Nat :=
  object.mapCurrentMNVotes.countP fun votepair =>
    (find votepair.2 eVoteSignalIn).any fun found => found.eOutcome == eVoteOutcomeIn

def getYesCount : Nat :=
  object.countMatchingVotes eVoteSignalIn VOTE_OUTCOME_YES

def getNoCount : Nat :=
  object.countMatchingVotes eVoteSignalIn VOTE_OUTCOME_NO

def getAbstainCount : Nat :=
  object.countMatchingVotes eVoteSignalIn VOTE_OUTCOME_ABSTAIN

def getAbsoluteYesCount : Int :=
  object.getYesCount eVoteSignalIn - object.getNoCount eVoteSignalIn

def getAbsoluteNoCount : Int :=
  object.getNoCount eVoteSignalIn - object.getYesCount eVoteSignalIn

def updateSentinelVariables (params : ConsensusParams) (nMnCount : Nat) (adjustedTime : Int)
    (object : CGovernanceObject getHash) : CGovernanceObject getHash :=
  if nMnCount = 0 then object
  else
    let nAbsVoteReq := max params.nGovernanceMinQuorum (nMnCount / 10 : Nat)
    let nAbsDeleteReq := max params.nGovernanceMinQuorum (2 * nMnCount / 3 : Nat)
    let deleted := decide (nAbsDeleteReq <= object.getAbsoluteYesCount VOTE_SIGNAL_DELETE) && !object.fCachedDelete
    { object with
      fCachedFunding := decide (nAbsVoteReq <= object.getAbsoluteYesCount VOTE_SIGNAL_FUNDING)
      fCachedDelete := object.fCachedDelete || deleted
      nDeletionTime := if deleted && object.nDeletionTime == 0 then adjustedTime else object.nDeletionTime
      fCachedEndorsed := decide (nAbsVoteReq <= object.getAbsoluteYesCount VOTE_SIGNAL_ENDORSED)
      fCachedValid := !decide (nAbsVoteReq <= object.getAbsoluteNoCount VOTE_SIGNAL_VALID)
      fDirtyCache := false }

def prepareDeletion (nDeletionTime : Int) : CGovernanceObject getHash :=
  { object with
    fCachedDelete := true
    nDeletionTime := if object.nDeletionTime = 0 then nDeletionTime else object.nDeletionTime }

/-! ## What a vote does to an object -/

/-- The votes that count are the same in two objects.  Their records may still differ in entries
that were made for a vote which was refused. -/
structure SameVotes (left right : CGovernanceObject getHash) : Prop where
  nObjectType : left.nObjectType = right.nObjectType
  fileVotes : left.fileVotes = right.fileVotes
  current : ∀ outpoint eSignal,
    left.currentVote outpoint eSignal = right.currentVote outpoint eSignal
  counts : ∀ eSignal outcome, outcome ≠ VOTE_OUTCOME_NONE ->
    left.countMatchingVotes eSignal outcome = right.countMatchingVotes eSignal outcome

theorem SameVotes.refl : SameVotes object object :=
  ⟨rfl, rfl, fun _ _ => rfl, fun _ _ _ => rfl⟩

theorem SameVotes.trans {first second third : CGovernanceObject getHash}
    (one : SameVotes first second) (two : SameVotes second third) : SameVotes first third where
  nObjectType := one.nObjectType.trans two.nObjectType
  fileVotes := one.fileVotes.trans two.fileVotes
  current := fun outpoint eSignal =>
    (one.current outpoint eSignal).trans (two.current outpoint eSignal)
  counts := fun eSignal outcome some =>
    (one.counts eSignal outcome some).trans (two.counts eSignal outcome some)

theorem sameVotes_withRecord : SameVotes (object.withRecord outpoint) object where
  nObjectType := rfl
  fileVotes := rfl
  current := by
    intro other eSignal
    unfold currentVote voteInstance withRecord
    rw [find_emplace]
    by_cases same : other = outpoint
    · subst same
      cases found : find object.mapCurrentMNVotes other with
      | none => simp [find]
      | some _ => simp
    · rw [if_neg same]
  counts := by
    intro eSignal outcome _
    exact countP_emplace _ _ _ rfl

theorem sameVotes_withInstance (made : Nat) :
    SameVotes (object.withInstance outpoint made) object where
  nObjectType := rfl
  fileVotes := rfl
  current := by
    intro other eSignal
    unfold currentVote voteInstance withInstance
    rw [find_modify]
    by_cases same : other = outpoint
    · subst same
      cases found : find object.mapCurrentMNVotes other with
      | none => simp
      | some _ =>
        by_cases sameSignal : eSignal = made
        · subst sameSignal
          simp [find_emplace]
        · simp [find_emplace, sameSignal]
    · rw [if_neg same]
  counts := by
    intro eSignal outcome counted
    unfold countMatchingVotes withInstance
    simp only
    apply countP_modify
    intro record
    rw [find_emplace]
    by_cases same : eSignal = made
    · subst same
      cases find record eSignal with
      | none => simpa [VOTE_OUTCOME_NONE] using Ne.symm counted
      | some _ => simp
    · rw [if_neg same]

theorem sameVotes_entered (made : Nat) :
    SameVotes ((object.withRecord outpoint).withInstance outpoint made) object :=
  (sameVotes_withInstance (object.withRecord outpoint) outpoint made).trans
    (sameVotes_withRecord object outpoint)

/-- A vote is accepted while the rate checks are off, as for orphan votes.  The members are the
tests of `CGovernanceObject::ProcessVote`, in their order. -/
structure Accepts (rules : VoteRules) (object : CGovernanceObject getHash)
    (vote : CGovernanceVote) : Prop where
  unknown : object.fileVotes.hasVote (getHash vote.toVoteContent) = false
  masternode : (rules.getMNByCollateral vote.masternodeOutpoint).isSome
  signal : vote.nVoteSignal ≠ VOTE_SIGNAL_NONE
  supported : vote.nVoteSignal <= MAX_SUPPORTED_VOTE_SIGNAL
  recent : (object.currentVote vote.masternodeOutpoint vote.nVoteSignal).nCreationTime <= vote.nTime
  winning :
    vote.nTime = (object.currentVote vote.masternodeOutpoint vote.nVoteSignal).nCreationTime ->
    (object.currentVote vote.masternodeOutpoint vote.nVoteSignal).eOutcome <= vote.nVoteOutcome
  valid : rules.isValid vote
    (object.nObjectType == GOVERNANCE_OBJECT_PROPOSAL && vote.nVoteSignal == VOTE_SIGNAL_FUNDING) = true

variable {left right : CGovernanceObject getHash}

/-- Whether a vote is accepted depends on the votes that count only. -/
theorem Accepts.of_sameVotes {rules : VoteRules}
    {vote : CGovernanceVote} (same : SameVotes left right) (accepts : Accepts rules left vote) :
    Accepts rules right vote where
  unknown := by rw [<- same.fileVotes]; exact accepts.unknown
  masternode := accepts.masternode
  signal := accepts.signal
  supported := accepts.supported
  recent := by rw [<- same.current]; exact accepts.recent
  winning := by rw [<- same.current]; exact accepts.winning
  valid := by rw [<- same.nObjectType]; exact accepts.valid

theorem SameVotes.symm (same : SameVotes left right) : SameVotes right left where
  nObjectType := same.nObjectType.symm
  fileVotes := same.fileVotes.symm
  current := fun outpoint eSignal => (same.current outpoint eSignal).symm
  counts := fun eSignal outcome some => (same.counts eSignal outcome some).symm

theorem SameVotes.accepts_iff {rules : VoteRules} {vote : CGovernanceVote}
    (same : SameVotes left right) :
    Accepts rules left vote <-> Accepts rules right vote :=
  ⟨Accepts.of_sameVotes same, Accepts.of_sameVotes same.symm⟩

/-- What `ProcessVote` does while the rate checks are off: a vote is recorded, or no vote that
counts changes. -/
theorem processVote_cases (rules : VoteRules) (object : CGovernanceObject getHash)
    (vote : CGovernanceVote) (nNow : Int) :
    (Accepts rules object vote /\ object.processVote rules vote false nNow =
        ⟨(((object.withRecord vote.masternodeOutpoint).withInstance vote.masternodeOutpoint
          vote.nVoteSignal).recordVote vote
            (object.currentVote vote.masternodeOutpoint vote.nVoteSignal).nTime), none⟩) \/
    (¬ Accepts rules object vote /\ (object.processVote rules vote false nNow).refused.isSome /\
      SameVotes (object.processVote rules vote false nNow).object object) := by
  unfold processVote
  simp only
  split
  · next known =>
    refine .inr ⟨?_, rfl, SameVotes.refl object⟩
    intro accepts
    rw [accepts.unknown] at known
    exact absurd known Bool.false_ne_true
  · next unknown =>
    split
    · next noMasternode =>
      refine .inr ⟨?_, rfl, SameVotes.refl object⟩
      intro accepts
      have found := accepts.masternode
      rw [noMasternode] at found
      cases found
    · next _ found =>
      split
      · next noSignal => exact .inr ⟨fun accepts => accepts.signal noSignal, rfl, sameVotes_withRecord _ _⟩
      next someSignal =>
      split
      · next unsupported =>
        exact .inr ⟨fun accepts => absurd accepts.supported (not_le.mpr unsupported), rfl,
          sameVotes_withRecord _ _⟩
      next supported =>
      split
      · next obsolete =>
        exact .inr ⟨fun accepts => absurd accepts.recent (not_le.mpr obsolete), rfl,
          sameVotes_entered _ _ _⟩
      next recent =>
      split
      · next losing =>
        exact .inr ⟨fun accepts => absurd (accepts.winning losing.1) (not_le.mpr losing.2), rfl,
          sameVotes_entered _ _ _⟩
      next winning =>
      rw [if_neg (by simp)]
      split
      · next invalid =>
        refine .inr ⟨?_, rfl, sameVotes_entered _ _ _⟩
        intro accepts
        rw [accepts.valid] at invalid
        cases invalid
      · next valid =>
        refine .inl ⟨?_, by rw [if_neg Bool.false_ne_true]⟩
        exact {
          unknown := Bool.eq_false_iff.mpr unknown
          masternode := by rw [found]; rfl
          signal := someSignal
          supported := not_lt.mp supported
          recent := not_lt.mp recent
          winning := fun same => not_lt.mp fun less => winning ⟨same, less⟩
          valid := Bool.not_eq_false _ ▸ valid }

theorem fileVotes_recordVote :
    (object.recordVote vote nVoteTimeUpdate).fileVotes = object.fileVotes.addVote vote := rfl

theorem currentVote_recorded (outpoint : COutPoint) (eSignal : Nat) :
    (((object.withRecord vote.masternodeOutpoint).withInstance vote.masternodeOutpoint
      vote.nVoteSignal).recordVote vote nVoteTimeUpdate).currentVote outpoint eSignal =
        if outpoint = vote.masternodeOutpoint /\ eSignal = vote.nVoteSignal then
          { eOutcome := vote.nVoteOutcome, nTime := nVoteTimeUpdate, nCreationTime := vote.nTime }
        else object.currentVote outpoint eSignal := by
  have before :=
    (sameVotes_entered object vote.masternodeOutpoint vote.nVoteSignal).current outpoint eSignal
  generalize entered :
    (object.withRecord vote.masternodeOutpoint).withInstance vote.masternodeOutpoint
    vote.nVoteSignal = holder at before ⊢
  rw [<- before]
  by_cases same : outpoint = vote.masternodeOutpoint
  · subst same
    by_cases sameSignal : eSignal = vote.nVoteSignal
    · subst sameSignal
      have there : (holder.voteInstance vote.masternodeOutpoint vote.nVoteSignal).isSome := by
        rw [<- entered]
        simp [voteInstance, withInstance, withRecord, find_modify, find_emplace]
      unfold voteInstance at there
      unfold currentVote voteInstance recordVote
      simp only [find_modify, if_true, and_self]
      cases found : find holder.mapCurrentMNVotes vote.masternodeOutpoint with
      | none =>
        rw [found] at there
        exact absurd there Bool.false_ne_true
      | some record =>
        rw [found, Option.bind_some] at there
        rcases Option.isSome_iff_exists.mp there with ⟨_, atSignal⟩
        simp [find_modify, atSignal]
    · rw [if_neg (fun both => sameSignal both.2)]
      unfold currentVote voteInstance recordVote
      simp only [find_modify, if_true]
      cases found : find holder.mapCurrentMNVotes vote.masternodeOutpoint with
      | none => rfl
      | some record => simp [find_modify, sameSignal]
  · rw [if_neg (fun both => same both.1)]
    unfold currentVote voteInstance recordVote
    simp only [find_modify, if_neg same]

end CGovernanceObject
end StakeCubeCoin.Governance
