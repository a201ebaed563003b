import StakeCubeCoin.Llmq.SigShares

namespace StakeCubeCoin.Llmq

open Primitives Bls List CBLSBatchVerifier

/-!
# InstantSend locks

`CInstantSendManager::ProcessPendingInstantSendLocks` of `llmq/instantsend.cpp`.  Locks that
other nodes have sent are verified in batches, first under the quorum that is selected now and
those that fail once more under the one that was selected an interval earlier.  What is done
with a lock that is found good is left out: it is handed to `ProcessInstantSendLock`.
-/

structure CInstantSendLock where
  nVersion : BitVec 8
  inputs : List COutPoint
  txid : Uint256
  cycleHash : Uint256
  sig : CBLSSignature
  deriving DecidableEq

def CInstantSendLock.isDeterministic (islock : CInstantSendLock) : Bool :=
  islock.nVersion != 0

structure CRecoveredSig where
  llmqType : LLMQType
  quorumHash : Uint256
  id : Uint256
  msgHash : Uint256
  sig : CBLSSignature
  deriving DecidableEq

structure PendingLock where
  hash : Uint256
  nodeId : NodeId
  islock : CInstantSendLock
  deriving DecidableEq

/-- `pendingInstantSendLocks`, a map by hash, in the order in which it is passed through. -/
structure PendingLocks where
  entries : List PendingLock
  distinct : (entries.map PendingLock.hash).Nodup

/-- Code of other files, and the parameters of the chain. -/
structure InstantSendEnv where
  curve : BlsCurve
  llmqType : LLMQType
  dkgInterval : Int
  getRequestId : List COutPoint -> Uint256
  buildSignHash : LLMQType -> Uint256 -> Uint256 -> Uint256 -> Uint256

/-- What the signing manager and the chain answer when a lock is looked at. -/
structure Sight where
  hasRecoveredSig : Uint256 -> Uint256 -> Bool
  hasRecoveredSigForId : Uint256 -> Bool
  lookupBlockIndex : Uint256 -> Option Int
  chainHeight : Int
  selectQuorumForSigning : Uint256 -> Int -> Int -> Option CQuorum

/-- The answers for each lock in the first loop of a pass, and whether a signature for its id was
recovered when the second loop comes to it. -/
structure PassView where
  sight : Uint256 -> Sight
  hasRecoveredSigForIdLater : Uint256 -> Bool

/-- Why a pass ends early: no quorum is selected, or an assertion fails. -/
inductive Stop where
  | noQuorum
  | assertion
  deriving DecidableEq

/-- What the first loop builds up. -/
structure Gathering where
  batchVerifier : CBLSBatchVerifier NodeId Uint256
  recSigs : List (Uint256 × CRecoveredSig) := []

structure PassResult where
  handed : List PendingLock := []
  badISLocks : List Uint256 := []
  misbehaving : List (NodeId × Nat) := []
  reconstructed : List CRecoveredSig := []

namespace InstantSendEnv

variable (env : InstantSendEnv)

/-- The height that the quorum is selected for, or nothing if the cycle block is not known. -/
def signHeight (sight : Sight) (islock : CInstantSendLock) : Option Int :=
  if islock.isDeterministic then
    (sight.lookupBlockIndex islock.cycleHash).map fun nHeight =>
      if nHeight + env.dkgInterval < sight.chainHeight then nHeight + env.dkgInterval - 1 else -1
  else some (-1)

def lockMessage (quorum : CQuorum) (entry : PendingLock) : Message Uint256 where
  msgId := entry.hash
  msgHash := env.buildSignHash env.llmqType quorum.quorumHash (env.getRequestId entry.islock.inputs)
    entry.islock.txid
  sig := entry.islock.sig
  pubKey := quorum.quorumPublicKey

/-- Do not look at other locks of a node. -/
def distrust (gathering : Gathering) (nodeId : NodeId) : Gathering :=
  { gathering with
    batchVerifier := { gathering.batchVerifier with
      badSources := gathering.batchVerifier.badSources.insert nodeId } }

variable (view : PassView) (signOffset : Int)

def gatherOne (gathering : Gathering) (entry : PendingLock) : Except Stop Gathering :=
  if entry.nodeId ∈ gathering.batchVerifier.badSources then .ok gathering
  else if !env.curve.scheme.isValidSignature entry.islock.sig then
    .ok (distrust gathering entry.nodeId)
  else
    let sight := view.sight entry.hash
    let id := env.getRequestId entry.islock.inputs
    if sight.hasRecoveredSig id entry.islock.txid then .ok gathering
    else
      match env.signHeight sight entry.islock with
      | none => .ok (distrust gathering entry.nodeId)
      | some nSignHeight =>
        match sight.selectQuorumForSigning id nSignHeight signOffset with
        | none => .error .noQuorum
        | some quorum =>
          match gathering.batchVerifier.pushMessage env.curve entry.nodeId (env.lockMessage quorum entry) with
          | none => .error .assertion
          | some pushed =>
            .ok { batchVerifier := pushed
                  recSigs :=
                    if sight.hasRecoveredSigForId id then gathering.recSigs
                    else gathering.recSigs ++ [(entry.hash,
                      { llmqType := env.llmqType, quorumHash := quorum.quorumHash, id,
                        msgHash := entry.islock.txid, sig := entry.islock.sig })] }

variable (pend : List PendingLock)

def gather : Except Stop Gathering :=
  pend.foldlM (env.gatherOne view signOffset)
    { batchVerifier := { secureVerification := false, perMessageFallback := true, subBatchSize := 8 } }

/-- One pass of `ProcessPendingInstantSendLocks`. -/
def processPass (ban : Bool) : PassResult :=
  match env.gather view signOffset pend with
  | .error _ => {}
  | .ok gathering =>
    let batchVerifier := gathering.batchVerifier.verify env.curve
    let handed := pend.filter fun entry => decide (entry.hash ∉ batchVerifier.badMessages)
    { handed := handed
      badISLocks := (pend.filter fun entry => decide (entry.hash ∈ batchVerifier.badMessages)).map PendingLock.hash
      misbehaving := if ban then batchVerifier.badSources.map fun nodeId => (nodeId, 20) else []
      reconstructed := handed.filterMap fun entry =>
        if view.hasRecoveredSigForIdLater entry.hash then none else gathering.recSigs.lookup entry.hash }

/-- The locks that are taken, at most 32. -/
def takePending (enabled : Bool) (pending : PendingLocks) : List PendingLock :=
  if enabled then pending.entries.take 32 else []

def takeBad : List PendingLock :=
  pend.filter fun entry => decide (entry.hash ∈ (env.processPass view 0 pend false).badISLocks)

/-- `ProcessPendingInstantSendLocks`: the results of the two passes. -/
def processPendingInstantSendLocks (enabled : Bool) (pending : PendingLocks)
    (current previous : PassView) :
    PassResult × PassResult :=
  let pend := takePending enabled pending
  let first := env.processPass current 0 pend false
  (first, if first.badISLocks.isEmpty then {}
    else env.processPass previous env.dkgInterval (env.takeBad current pend) true)

/-- The lock verifies under the quorum that is selected for it in a pass. -/
def verifiesIn (entry : PendingLock) : Bool :=
  match env.signHeight (view.sight entry.hash) entry.islock with
  | none => false
  | some nSignHeight =>
    match (view.sight entry.hash).selectQuorumForSigning
        (env.getRequestId entry.islock.inputs) nSignHeight signOffset with
    | none => false
    | some quorum => (env.lockMessage quorum entry).valid env.curve

end InstantSendEnv

/-! ## What is looked at -/

section

variable {env : InstantSendEnv} {view : PassView} {signOffset : Int}

/-- The first loop pushes a lock after some others: they have not made its node distrusted, its
signature decodes, nothing was recovered for it, and its cycle block is known. -/
structure Examined (env : InstantSendEnv) (view : PassView) (signOffset : Int)
    (before : List PendingLock) (entry : PendingLock) : Prop where
  trusted : ∀ gathering, env.gather view signOffset before = .ok gathering ->
    entry.nodeId ∉ gathering.batchVerifier.badSources
  decodes : env.curve.scheme.isValidSignature entry.islock.sig = true
  unknown : (view.sight entry.hash).hasRecoveredSig (env.getRequestId entry.islock.inputs)
    entry.islock.txid = false
  cycle : (env.signHeight (view.sight entry.hash) entry.islock).isSome = true

/-- A lock of a list is pushed when the loop comes to it. -/
def ExaminedIn (env : InstantSendEnv) (view : PassView) (signOffset : Int) (pend : List PendingLock)
    (entry : PendingLock) : Prop :=
  ∃ position, pend[position]? = some entry /\
    Examined env view signOffset (pend.take position) entry

variable {pend : List PendingLock} {entry last : PendingLock}

theorem examinedIn_snoc : ExaminedIn env view signOffset (pend ++ [last]) entry <->
      ExaminedIn env view signOffset pend entry \/ (entry = last /\ Examined env view signOffset pend last) := by
  constructor
  · rintro ⟨position, here, examined⟩
    by_cases inside : position < pend.length
    · rw [List.getElem?_append_left inside] at here
      rw [take_append_of_le_length (le_of_lt inside)] at examined
      exact .inl ⟨position, here, examined⟩
    rw [List.getElem?_append_right (Nat.le_of_not_lt inside)] at here
    have bound := (List.getElem?_eq_some_iff.mp here).1
    have atEnd : position = pend.length := by
      rw [length_singleton] at bound
      omega
    subst atEnd
    rw [Nat.sub_self] at here
    have same : last = entry := Option.some.inj here
    rw [take_left, <- same] at examined
    exact .inr ⟨same.symm, examined⟩
  · rintro (⟨position, here, examined⟩ | ⟨same, examined⟩)
    · have inside := (List.getElem?_eq_some_iff.mp here).1
      refine ⟨position, ?_, ?_⟩
      · rw [List.getElem?_append_left inside]
        exact here
      · rw [take_append_of_le_length (le_of_lt inside)]
        exact examined
    · refine ⟨pend.length, ?_, ?_⟩
      · rw [List.getElem?_append_right le_rfl, Nat.sub_self, same]
        rfl
      · rw [take_left, same]
        exact examined

theorem ExaminedIn.mem (examined : ExaminedIn env view signOffset pend entry) : entry ∈ pend := by
  rcases examined with ⟨_, here, _⟩
  exact mem_of_getElem? here

/-- A lock that was pushed waits with its message, or was found valid or bad. -/
def Treated (env : InstantSendEnv) (view : PassView) (signOffset : Int)
    (verifier : CBLSBatchVerifier NodeId Uint256) (entry : PendingLock) : Prop :=
  env.verifiesIn view signOffset entry = true \/ entry.hash ∈ verifier.badMessages \/
    ∃ msg, msg.msgId = entry.hash /\
      (msg.valid env.curve = true -> env.verifiesIn view signOffset entry = true) /\
      (entry.nodeId, msg) ∈ verifier.messagesBySource

/-- The verifier has what the first loop has pushed, and nothing else.  With the fallback to single
messages, each lock is then found bad on its own account only. -/
structure Gathered (env : InstantSendEnv) (view : PassView) (signOffset : Int)
    (pend : List PendingLock) (verifier : CBLSBatchVerifier NodeId Uint256) : Prop where
  fallback : verifier.perMessageFallback = true
  pushed : ∀ hash, hash ∈ verifier.badMessages \/ (∃ msg ∈ verifier.messages, msg.msgId = hash) ->
    ∃ entry, ExaminedIn env view signOffset pend entry /\ entry.hash = hash
  treated : ∀ entry, ExaminedIn env view signOffset pend entry ->
    Treated env view signOffset verifier entry

theorem Gathered.skip {before after : CBLSBatchVerifier NodeId Uint256}
    (gathered : Gathered env view signOffset pend before)
    (passed : ¬ Examined env view signOffset pend last)
    (fallback : after.perMessageFallback = before.perMessageFallback)
    (messages : after.messages = before.messages)
    (bySource : after.messagesBySource = before.messagesBySource)
    (bad : after.badMessages = before.badMessages) :
    Gathered env view signOffset (pend ++ [last]) after := by
  refine ⟨fallback.trans gathered.fallback, ?_, ?_⟩
  · intro hash seen
    rw [bad, messages] at seen
    rcases gathered.pushed hash seen with ⟨entry, examined, same⟩
    exact ⟨entry, examinedIn_snoc.mpr (.inl examined), same⟩
  · intro entry examined
    rcases examinedIn_snoc.mp examined with earlier | ⟨_, now⟩
    · have treated := gathered.treated entry earlier
      rwa [Treated, <- bad, <- bySource] at treated
    · exact absurd now passed

variable {verifier : CBLSBatchVerifier NodeId Uint256}

theorem Treated.verifySubBatch (fallback : verifier.perMessageFallback = true)
    (treated : Treated env view signOffset verifier entry) :
    Treated env view signOffset (verifier.verifySubBatch env.curve) entry := by
  unfold CBLSBatchVerifier.verifySubBatch
  split
  · rcases treated with verified | bad | ⟨msg, sameId, means, pushed⟩
    · exact .inl verified
    · exact .inr (.inl ((settles_verify env.curve verifier).messages _ bad))
    · rcases (settles_verify env.curve verifier).settled fallback _ (mem_sources_of_pushed pushed) msg pushed with
        valid | bad
      · exact .inl (means valid)
      · exact .inr (.inl (sameId ▸ bad))
  · exact treated

theorem Treated.emplace (treated : Treated env view signOffset verifier entry) (nodeId : NodeId)
    (msg : Message Uint256) :
    Treated env view signOffset (verifier.emplace nodeId msg) entry := by
  rcases treated with verified | _ | ⟨other, sameId, means, pushed⟩
  · exact .inl verified
  · refine .inr (.inl ?_)
    rwa [badMessages_emplace]
  · exact .inr (.inr ⟨other, sameId, means, pushed_emplace_of_pushed pushed⟩)

/-- A lock is pushed.  No other one has its hash, so its own message is stored. -/
theorem Gathered.push (gathered : Gathered env view signOffset pend verifier)
    (fresh : ∀ entry ∈ pend, entry.hash ≠ last.hash)
    (examined : Examined env view signOffset pend last) {quorum : CQuorum}
    (means : (env.lockMessage quorum last).valid env.curve = true -> env.verifiesIn view signOffset last = true) :
    Gathered env view signOffset (pend ++ [last])
      ((verifier.emplace last.nodeId (env.lockMessage quorum last)).verifySubBatch env.curve) := by
  have fallback :
    (verifier.emplace last.nodeId (env.lockMessage quorum last)).perMessageFallback = true := by
    refine Eq.trans ?_ gathered.fallback
    unfold emplace
    split <;> rfl
  refine ⟨?_, ?_, ?_⟩
  · refine Eq.trans ?_ fallback
    unfold verifySubBatch CBLSBatchVerifier.verify
    split
    · split <;> rfl
    · rfl
  · intro hash seen
    have earlier : (hash ∈ verifier.badMessages \/
        (∃ msg ∈ verifier.messages, msg.msgId = hash)) \/ last.hash = hash := by
      have before : hash ∈ (verifier.emplace last.nodeId (env.lockMessage quorum last)).badMessages \/
          ∃ msg ∈ (verifier.emplace last.nodeId (env.lockMessage quorum last)).messages, msg.msgId = hash := by
        unfold verifySubBatch at seen
        split at seen
        · rcases seen with bad | ⟨_, member, _⟩
          · exact (settles_verify env.curve _).pushed hash bad
          · cases member
        · exact seen
      rcases before with bad | ⟨msg, member, same⟩
      · rw [badMessages_emplace] at bad
        exact .inl (.inl bad)
      · rcases mem_messages_emplace member with before | now
        · exact .inl (.inr ⟨msg, before, same⟩)
        · rw [now] at same
          exact .inr same
    rcases earlier with before | now
    · rcases gathered.pushed hash before with ⟨entry, entryExamined, same⟩
      exact ⟨entry, examinedIn_snoc.mpr (.inl entryExamined), same⟩
    · exact ⟨last, examinedIn_snoc.mpr (.inr ⟨rfl, examined⟩), now⟩
  · intro entry entryExamined
    refine Treated.verifySubBatch fallback ?_
    rcases examinedIn_snoc.mp entryExamined with earlier | ⟨same, _⟩
    · exact (gathered.treated entry earlier).emplace _ _
    subst same
    rcases exists_pushed_emplace verifier entry.nodeId (env.lockMessage quorum entry) with
      ⟨stored, sameId, pushed⟩
    refine .inr (.inr ⟨stored, sameId, ?_, pushed⟩)
    rcases mem_messages_emplace
      ((verifier.emplace entry.nodeId (env.lockMessage quorum entry)).listed _ pushed) with before | now
    · rcases gathered.pushed entry.hash (.inr ⟨stored, before, sameId⟩) with ⟨other, otherExamined, clash⟩
      exact absurd clash (fresh other otherExamined.mem)
    · have own : stored = env.lockMessage quorum entry := now
      rw [own]
      exact means

theorem Gathered.gatherOne {before after : Gathering}
    (gathered : Gathered env view signOffset pend before.batchVerifier)
    (fresh : ∀ entry ∈ pend, entry.hash ≠ last.hash)
    (earlier : env.gather view signOffset pend = .ok before)
    (now : env.gatherOne view signOffset before last = .ok after) :
    Gathered env view signOffset (pend ++ [last]) after.batchVerifier := by
  unfold InstantSendEnv.gatherOne at now
  dsimp only at now
  split at now
  · next distrusted =>
    cases now
    exact gathered.skip (fun examined => examined.trusted before earlier distrusted) rfl rfl rfl rfl
  next trusted =>
  split at now
  · next invalid =>
    cases now
    refine gathered.skip (fun examined => ?_) rfl rfl rfl rfl
    rw [examined.decodes] at invalid
    cases invalid
  · next decodes =>
    split at now
    · next recovered =>
      cases now
      refine gathered.skip (fun examined => ?_) rfl rfl rfl rfl
      rw [examined.unknown] at recovered
      cases recovered
    · next unknown =>
      split at now
      · next noBlock =>
        cases now
        refine gathered.skip (fun examined => ?_) rfl rfl rfl rfl
        have cycle := examined.cycle
        rw [noBlock] at cycle
        cases cycle
      · next _ found =>
        split at now
        · cases now
        next _ selected =>
        split at now
        · cases now
        next _ accepted =>
        cases now
        rw [eq_verifySubBatch_of_pushMessage accepted]
        refine gathered.push fresh ⟨?_, by simpa using decodes, by simpa using unknown, ?_⟩ ?_
        · intro other otherEarlier
          rw [earlier] at otherEarlier
          cases otherEarlier
          exact trusted
        · rw [found]
          rfl
        · intro valid
          unfold InstantSendEnv.verifiesIn
          rw [found]
          dsimp only
          rw [selected]
          exact valid

theorem gather_snoc {after : Gathering}
    (gathers : env.gather view signOffset (pend ++ [last]) = .ok after) :
    ∃ before, env.gather view signOffset pend = .ok before /\
      env.gatherOne view signOffset before last = .ok after := by
  unfold InstantSendEnv.gather at gathers
  simp only [foldlM_append, foldlM_cons, foldlM_nil] at gathers
  unfold InstantSendEnv.gather
  generalize List.foldlM (env.gatherOne view signOffset) _ pend = earlier at gathers ⊢
  cases earlier with
  | error stop => cases gathers
  | ok before =>
    refine ⟨before, rfl, ?_⟩
    change (env.gatherOne view signOffset before last).bind _ = _ at gathers
    generalize env.gatherOne view signOffset before last = now at gathers ⊢
    cases now with
    | error stop => cases gathers
    | ok _ => exact gathers

end

/-! ## What is handed over -/

section

variable {env : InstantSendEnv} {view : PassView} {signOffset : Int}

/-- A pass looks at every lock that is not good, unless it ends early. -/
def Checks (env : InstantSendEnv) (view : PassView) (signOffset : Int) (good : PendingLock -> Prop)
    (pend : List PendingLock) : Prop :=
  (∃ stop, env.gather view signOffset pend = .error stop) \/
    ∀ entry ∈ pend, good entry \/ ExaminedIn env view signOffset pend entry

theorem handed_processPass_iff {pend : List PendingLock}
    (distinct : (pend.map PendingLock.hash).Nodup) (ban : Bool) {good : PendingLock -> Prop}
    (verified : ∀ entry, env.verifiesIn view signOffset entry = true -> good entry) :
    (∀ entry ∈ (env.processPass view signOffset pend ban).handed, good entry) <->
      Checks env view signOffset good pend := by
  unfold InstantSendEnv.processPass Checks
  cases gathers : env.gather view signOffset pend with
  | error stop =>
    exact ⟨fun _ => .inl ⟨stop, rfl⟩, fun _ _ member => absurd member not_mem_nil⟩
  | ok gathering =>
    have gathered : Gathered env view signOffset pend gathering.batchVerifier := by
      clear verified
      induction pend using List.reverseRecOn generalizing gathering with
      | nil =>
        cases gathers
        refine ⟨rfl, ?_, ?_⟩
        · rintro hash (bad | ⟨_, member, _⟩)
          · cases bad
          · cases member
        · intro entry examined
          exact absurd examined.mem not_mem_nil
      | append_singleton pend _ ih =>
        rw [map_append, nodup_append] at distinct
        rcases gather_snoc gathers with ⟨_, earlier, now⟩
        refine (ih distinct.1 _ earlier).gatherOne ?_ earlier now
        intro entry member
        exact distinct.2.2 _ (mem_map_of_mem member) _ (mem_singleton_self _)
    have settles := settles_verify env.curve gathering.batchVerifier
    constructor
    · intro handed
      refine .inr ?_
      intro entry member
      by_cases examined : ExaminedIn env view signOffset pend entry
      · exact .inr examined
      refine .inl (handed entry (mem_filter.mpr ⟨member, decide_eq_true ?_⟩))
      intro bad
      rcases gathered.pushed entry.hash (settles.pushed entry.hash bad) with ⟨_, otherExamined, same⟩
      have equal := inj_on_of_nodup_map distinct otherExamined.mem member same
      subst equal
      exact examined otherExamined
    · rintro (⟨stop, stopped⟩ | checked)
      · cases stopped
      intro entry handed
      rcases mem_filter.mp handed with ⟨member, notBad⟩
      have innocent := of_decide_eq_true notBad
      rcases checked entry member with known | examined
      · exact known
      rcases gathered.treated entry examined with valid | bad | ⟨msg, sameId, means, pushed⟩
      · exact verified entry valid
      · exact absurd (settles.messages _ bad) innocent
      rcases settles.settled gathered.fallback entry.nodeId
        (mem_sources_of_pushed pushed) msg pushed with valid | bad
      · exact verified entry (means valid)
      · rw [sameId] at bad
        exact absurd bad innocent

end

/-- The lock verifies under the quorum that is selected for it in one of the passes. -/
def VerifiesInSome (env : InstantSendEnv) (current previous : PassView) (entry : PendingLock) :
    Prop :=
  env.verifiesIn current 0 entry = true \/ env.verifiesIn previous env.dkgInterval entry = true

/-- All locks that are handed over verify in one of the passes if and only if each full pass pushes
every one of its locks that verifies in neither. -/
theorem handed_locks_verify_iff (env : InstantSendEnv) (enabled : Bool) (pending : PendingLocks)
    (current previous : PassView) :
    (∀ entry, entry ∈ (env.processPendingInstantSendLocks enabled pending current previous).1.handed \/
        entry ∈ (env.processPendingInstantSendLocks enabled pending current previous).2.handed ->
      VerifiesInSome env current previous entry) <->
    Checks env current 0 (VerifiesInSome env current previous) (InstantSendEnv.takePending enabled pending) /\
      Checks env previous env.dkgInterval (VerifiesInSome env current previous)
        (env.takeBad current (InstantSendEnv.takePending enabled pending)) := by
  have distinct : ((InstantSendEnv.takePending enabled pending).map PendingLock.hash).Nodup := by
    unfold InstantSendEnv.takePending
    split
    · exact pending.distinct.sublist ((take_sublist 32 pending.entries).map _)
    · exact nodup_nil
  unfold InstantSendEnv.processPendingInstantSendLocks
  generalize InstantSendEnv.takePending enabled pending = pend at distinct ⊢
  have distinctBad : ((env.takeBad current pend).map PendingLock.hash).Nodup :=
    distinct.sublist (filter_sublist.map _)
  have first :=
    @handed_processPass_iff env current 0 pend distinct false (VerifiesInSome env current previous)
    fun _ => .inl
  have second := @handed_processPass_iff env previous env.dkgInterval _ distinctBad true
    (VerifiesInSome env current previous) fun _ => .inr
  dsimp only
  rw [<- first, <- second]
  constructor
  · intro handed
    refine ⟨fun entry member => handed entry (.inl member), ?_⟩
    intro entry member
    apply handed entry (.inr _)
    rwa [if_neg]
    intro noneBad
    have nothing : env.takeBad current pend = [] := by
      unfold InstantSendEnv.takeBad
      rw [isEmpty_iff.mp noneBad]
      exact filter_eq_nil_iff.mpr fun entry _ bad => absurd (of_decide_eq_true bad) not_mem_nil
    rw [nothing] at member
    cases member
  · rintro ⟨one, two⟩ entry (inFirst | inSecond)
    · exact one entry inFirst
    · split at inSecond
      · cases inSecond
      · exact two entry inSecond

def InstantSendEnv.sample : InstantSendEnv where
  curve := .sample
  llmqType := 1
  dkgInterval := 24
  getRequestId := fun inputs => BitVec.ofNat 256 inputs.length
  buildSignHash := fun _ quorumHash id msgHash => quorumHash + id + msgHash

/-- Nothing was recovered, and one quorum is selected for everything. -/
def PassView.sample : PassView where
  sight := fun _ =>
    { hasRecoveredSig := fun _ _ => false
      hasRecoveredSigForId := fun _ => false
      lookupBlockIndex := fun _ => none
      chainHeight := 100
      selectQuorumForSigning := fun _ _ _ => some (.sample 1 5) }
  hasRecoveredSigForIdLater := fun _ => false

/-- A lock with a signature that does not decode. -/
def PendingLock.sample : PendingLock where
  hash := 9
  nodeId := 1
  islock := { nVersion := 0, inputs := [⟨3, 0⟩], txid := 4, cycleHash := 0, sig := 2 }

/-- A lock with a signature that does not decode is never pushed, so it is not found bad. -/
theorem undecodable_lock_is_handed_over :
    PendingLock.sample ∈ (InstantSendEnv.sample.processPendingInstantSendLocks true
      ⟨[PendingLock.sample], List.nodup_singleton _⟩ PassView.sample PassView.sample).1.handed /\
    ¬ VerifiesInSome InstantSendEnv.sample PassView.sample PassView.sample PendingLock.sample := by
  unfold VerifiesInSome
  decide +kernel

end StakeCubeCoin.Llmq
