import StakeCubeCoin.Library.Trace
import StakeCubeCoin.Llmq.Commitment

namespace StakeCubeCoin.Llmq

open Primitives Library List Function

/-!
# Data of quorums

`CQuorumManager` of `llmq/quorums.cpp` as far as it asks other nodes for data of a quorum: the
requests with their replies, and the tasks that make requests until the data is there.
-/

/-- `CQuorumDataRequest::Errors`. -/
inductive DataError where
  | NONE
  | QUORUM_TYPE_INVALID
  | QUORUM_BLOCK_NOT_FOUND
  | QUORUM_NOT_FOUND
  | MASTERNODE_IS_NO_MEMBER
  | QUORUM_VERIFICATION_VECTOR_MISSING
  | ENCRYPTED_CONTRIBUTIONS_MISSING
  | UNDEFINED
  deriving DecidableEq

/-- What a request asks for: the fields that `operator==` compares. -/
structure DataWanted where
  llmqType : LLMQType
  quorumHash : Uint256
  nDataMask : BitVec 16
  proTxHash : Uint256
  deriving DecidableEq

structure CQuorumDataRequest extends DataWanted where
  nError : DataError := .UNDEFINED
  nTime : Int
  fProcessed : Bool := false
  deriving DecidableEq

def EXPIRATION_TIMEOUT : Int := 300

def CQuorumDataRequest.isExpired (request : CQuorumDataRequest) (now : Int) : Bool :=
  decide (EXPIRATION_TIMEOUT <= now - request.nTime)

/-- `mapQuorumDataRequests`, by the peer and whether the request is ours. -/
abbrev DataRequests := Uint256 × Bool -> Option CQuorumDataRequest

/-- A call of `RequestQuorumData`.  `valid` is that the peer, the type and the quorum pass the
checks that come first. -/
structure DataCall where
  peer : Uint256
  wanted : DataWanted
  valid : Bool := true

def DataCall.request (call : DataCall) (now : Int) : CQuorumDataRequest :=
  ⟨call.wanted, .UNDEFINED, now, false⟩

/-- `RequestQuorumData`: the `QGETDATA` that is sent, if the result is true. -/
def requestQuorumData (now : Int) (call : DataCall) (requests : DataRequests) :
    Option CQuorumDataRequest × DataRequests :=
  if !call.valid then (none, requests)
  else
    match requests (call.peer, true) with
    | none => (some (call.request now), update requests (call.peer, true) (some (call.request now)))
    | some old => (if old.isExpired now then some old else none, requests)

/-- What becomes of a `QDATA`. -/
inductive DataOutcome where
  | notRequested
  | alreadyReceived
  | notLikeRequested
  | error (nError : DataError)
  | processed
  deriving DecidableEq

/-- `ProcessMessage` for a `QDATA` of a verified peer, up to the data itself. -/
def processQDATA (peer : Uint256) (reply : DataWanted) (nError : DataError)
    (requests : DataRequests) :
    DataOutcome × DataRequests :=
  match requests (peer, true) with
  | none => (.notRequested, requests)
  | some request =>
    if request.fProcessed then (.alreadyReceived, requests)
    else if reply ≠ request.toDataWanted then (.notLikeRequested, requests)
    else
      (if nError = .NONE then .processed else .error nError,
        update requests (peer, true) (some { request with fProcessed := true }))

/-- The part of `UpdatedBlockTip` that removes what is expired. -/
def cleanupRequests (now : Int) (requests : DataRequests) : DataRequests :=
  fun key => (requests key).filter fun request => !request.isExpired now

inductive DataEvent where
  | request (now : Int) (call : DataCall)
  | qdata (now : Int) (peer : Uint256) (reply : DataWanted) (nError : DataError)
  | tip (now : Int)

def DataEvent.now : DataEvent -> Int
  | .request now _ | .qdata now _ _ _ | .tip now => now

def dataStep (requests : DataRequests) : DataEvent -> DataRequests
  | .request now call => (requestQuorumData now call requests).2
  | .qdata _ peer reply nError => (processQDATA peer reply nError requests).2
  | .tip now => cleanupRequests now requests

/-- An event before a request expires, and not a reply to it, also not one with an error. -/
def Meanwhile (now : Int) (call : DataCall) (event : DataEvent) : Prop :=
  event.now < now + EXPIRATION_TIMEOUT /\ ∀ time nError,
    event ≠ .qdata time call.peer call.wanted nError

/-- The message carries what the call wants, and the first reply before it expires is processed. -/
def Answered (now : Int) (call : DataCall) (requests : DataRequests) : Prop :=
  (∃ sent, (requestQuorumData now call requests).1 = some sent /\
    sent.toDataWanted = call.wanted) /\
    ∀ events : List DataEvent, (∀ event ∈ events, Meanwhile now call event) ->
      (processQDATA call.peer call.wanted .NONE
        (events.foldl dataStep (requestQuorumData now call requests).2)).1 = .processed

section

variable {now : Int} {call : DataCall} {requests : DataRequests}

/-- A request that is new stays until it expires or is answered. -/
theorem dataStep_keeps {event : DataEvent} (meanwhile : Meanwhile now call event)
    (waits : requests (call.peer, true) = some (call.request now)) :
    dataStep requests event (call.peer, true) = some (call.request now) := by
  have fresh : (call.request now).isExpired event.now = false := by
    have early := meanwhile.1
    refine decide_eq_false ?_
    change ¬EXPIRATION_TIMEOUT <= event.now - now
    omega
  cases event with
  | request time other =>
    rw [dataStep, requestQuorumData]
    split
    · exact waits
    split
    · next absent =>
      refine (update_of_ne ?_ _ _).trans waits
      intro same
      rw [same, absent] at waits
      cases waits
    · exact waits
  | qdata time peer reply nError =>
    by_cases same : peer = call.peer
    · subst same
      have other : reply ≠ call.wanted := fun same => meanwhile.2 time nError (same ▸ rfl)
      simp [dataStep, processQDATA, waits, DataCall.request, other]
    have apart : (call.peer, true) ≠ (peer, true) := fun equal => same (congrArg Prod.fst equal).symm
    rw [dataStep, processQDATA]
    split
    · exact waits
    split
    · exact waits
    split
    · exact waits
    · exact (update_of_ne apart _ _).trans waits
  | tip time =>
    change (call.request now).isExpired time = false at fresh
    simp [dataStep, cleanupRequests, waits, fresh]

/-- **A call that succeeds is answered exactly if there was no request to the peer.**  An expired
request that is still there is sent again instead. -/
theorem answered_iff (returned : (requestQuorumData now call requests).1 ≠ none) :
    Answered now call requests <-> requests (call.peer, true) = none := by
  have valid : call.valid = true := by
    by_contra invalid
    exact returned (by simp [requestQuorumData, invalid])
  constructor
  · rintro ⟨_, answers⟩
    by_contra known
    rcases Option.ne_none_iff_exists'.mp known with ⟨old, found⟩
    have expired : old.isExpired now = true := by
      by_contra fresh
      exact returned (by simp [requestQuorumData, valid, found, fresh])
    -- A tip at the same time removes the old request.
    have removed : cleanupRequests now requests (call.peer, true) = none := by
      simp [cleanupRequests, found, expired]
    have tip : Meanwhile now call (.tip now) := ⟨Int.lt_add_of_pos_right now (by decide), nofun⟩
    have rejected := answers [.tip now] (forall_mem_singleton.mpr tip)
    simp [requestQuorumData, valid, found, dataStep, processQDATA, removed] at rejected
  · intro absent
    refine ⟨⟨call.request now, by simp [requestQuorumData, valid, absent], rfl⟩, ?_⟩
    intro events meanwhile
    have waits : (requestQuorumData now call requests).2 (call.peer, true) =
        some (call.request now) := by
      simp [requestQuorumData, valid, absent]
    have kept := List.foldlRecOn (motive := fun after => after (call.peer, true) = some (call.request now)) events
      dataStep waits fun _ waits event member => dataStep_keeps (meanwhile event member) waits
    simp [processQDATA, kept, DataCall.request]

end

def sampleCall (quorumHash : Uint256) : DataCall where
  peer := 7
  wanted := { llmqType := 1, quorumHash, nDataMask := 1, proTxHash := 9 }

def requestedOnce : DataRequests :=
  dataStep (fun _ => none) (.request 1000 (sampleCall 5))

/-- While a request to one peer is open, one to another is answered. -/
theorem answered_first : Answered 1100 { sampleCall 6 with peer := 8 } requestedOnce :=
  (answered_iff (by decide)).mpr rfl

/-- Five minutes after a request another one is made: the old one is sent again.  And after a reply
with an error one without is refused. -/
theorem expired_request_resent :
    (requestQuorumData 1300 (sampleCall 6) requestedOnce).1 = some ((sampleCall 5).request 1000) /\
    ¬Answered 1300 (sampleCall 6) requestedOnce /\ (processQDATA 7 (sampleCall 5).wanted .NONE
      (dataStep requestedOnce (.qdata 1001 7 (sampleCall 5).wanted .QUORUM_NOT_FOUND))).1 = .alreadyReceived := by
  have resent : (requestQuorumData 1300 (sampleCall 6) requestedOnce).1 =
    some ((sampleCall 5).request 1000) := by
    decide +kernel
  refine ⟨resent, ?_, by decide +kernel⟩
  rintro ⟨⟨sent, same, wanted⟩, _⟩
  cases resent.symm.trans same
  exact absurd wanted (by decide)

inductive QvvecSyncMode where
  | Invalid
  | Always
  | OnlyIfTypeMember
  deriving DecidableEq

/-- A quorum, whether the node is a valid member of it, and what it has of its data. -/
structure QuorumSight where
  quorum : LLMQType × Uint256
  isValidMember : Bool
  hasVerificationVector : Bool
  hasSkShare : Bool

/-- What `TriggerQuorumDataRecoveryThreads` looks up at a tip: whether it goes on, and for each type
the sync mode and what `ScanQuorums` returns. -/
structure TipSight where
  enabled : Bool := true
  types : List (QvvecSyncMode × List QuorumSight)

def dataMask (syncMode : QvvecSyncMode) (vecQuorums : List QuorumSight) (pQuorum : QuorumSight) :
    BitVec 16 :=
  let fWeAreQuorumTypeMember := vecQuorums.any QuorumSight.isValidMember
  let fSyncCurrent := syncMode = .Always \/ syncMode = .OnlyIfTypeMember /\
    fWeAreQuorumTypeMember = true
  (if (pQuorum.isValidMember = true \/ fSyncCurrent) /\ pQuorum.hasVerificationVector = false then 1 else 0) |||
    if pQuorum.isValidMember = true /\ pQuorum.hasSkShare = false then 2 else 0

/-- The flag of each quorum, and the tasks in the worker pool: those that wait and those that
run. -/
structure RecoveryTasks where
  fQuorumDataRecoveryThreadRunning : LLMQType × Uint256 -> Bool := fun _ => false
  queued : List (LLMQType × Uint256) := []
  running : List (LLMQType × Uint256) := []

variable (tasks : RecoveryTasks)

/-- `StartQuorumDataRecoveryThread`.  The flag is cleared after the task was pushed, not when it is
done. -/
def startQuorumDataRecoveryThread (pQuorum : LLMQType × Uint256) : RecoveryTasks :=
  if tasks.fQuorumDataRecoveryThreadRunning pQuorum then tasks
  else
    let flagged := update tasks.fQuorumDataRecoveryThreadRunning pQuorum true
    { tasks with
      queued := tasks.queued ++ [pQuorum]
      fQuorumDataRecoveryThreadRunning := update flagged pQuorum false }

/-- The quorums of a tip with the masks of the data that the node lacks. -/
def TipSight.masks (sight : TipSight) : List ((LLMQType × Uint256) × BitVec 16) :=
  sight.types.flatMap fun type => type.2.map fun pQuorum =>
    (pQuorum.quorum, dataMask type.1 type.2 pQuorum)

/-- One round of the loop over the quorums. -/
def triggerOne (item : (LLMQType × Uint256) × BitVec 16) : RecoveryTasks :=
  if tasks.fQuorumDataRecoveryThreadRunning item.1 then tasks
  else if item.2 = 0 then tasks
  else startQuorumDataRecoveryThread tasks item.1

/-- A tip, or a task that the pool starts or that is done. -/
inductive TaskEvent where
  | updatedBlockTip (sight : TipSight)
  | start (pQuorum : LLMQType × Uint256)
  | finish (pQuorum : LLMQType × Uint256)

def taskStep : TaskEvent -> RecoveryTasks
  | .updatedBlockTip sight => if sight.enabled then sight.masks.foldl triggerOne tasks else tasks
  | .start pQuorum =>
    if pQuorum ∈ tasks.queued then
      { tasks with queued := tasks.queued.erase pQuorum, running := pQuorum :: tasks.running }
    else tasks
  | .finish pQuorum => { tasks with running := tasks.running.erase pQuorum }

/-- Each quorum has one task at most. -/
def OneTaskEach : Prop :=
  (tasks.queued ++ tasks.running).Nodup

def TipSight.lacking (sight : TipSight) : List (LLMQType × Uint256) :=
  (sight.masks.filter fun item => item.2 ≠ 0).map Prod.fst

/-- No quorum that lacks data at a tip has a task, and none is listed twice. -/
def TasksDone : TaskEvent -> Prop
  | .updatedBlockTip sight => sight.enabled = true ->
    sight.lacking.Nodup /\ sight.lacking.Disjoint (tasks.queued ++ tasks.running)
  | _ => True

/-- Between two tips no flag is set, so a tip starts a task for each quorum that lacks data. -/
theorem foldl_triggerOne (masks : List ((LLMQType × Uint256) × BitVec 16)) (tasks : RecoveryTasks)
    (clear : tasks.fQuorumDataRecoveryThreadRunning = fun _ => false) :
    masks.foldl triggerOne tasks =
      { tasks with queued := tasks.queued ++ (masks.filter fun item => item.2 ≠ 0).map Prod.fst } := by
  induction masks generalizing tasks with
  | nil => rw [filter_nil, map_nil, append_nil, foldl_nil]
  | cons item rest ih =>
    rw [foldl_cons, triggerOne, if_neg (by simp [clear])]
    by_cases nothing : item.2 = 0
    · rw [if_pos nothing, ih tasks clear, filter_cons_of_neg (by simp [nothing])]
    have started : startQuorumDataRecoveryThread tasks item.1 =
        { tasks with queued := tasks.queued ++ [item.1] } := by
      simp [startQuorumDataRecoveryThread, clear]
    rw [if_neg nothing, started, filter_cons_of_pos (by simpa using nothing),
      ih { tasks with queued := tasks.queued ++ [item.1] } clear, append_assoc]
    rfl

theorem oneTaskEach_step {tasks : RecoveryTasks} (event : TaskEvent)
    (clear : tasks.fQuorumDataRecoveryThreadRunning = fun _ => false) (one : OneTaskEach tasks) :
    (OneTaskEach (taskStep tasks event) <-> TasksDone tasks event) /\
      (taskStep tasks event).fQuorumDataRecoveryThreadRunning = fun _ => false := by
  cases event with
  | updatedBlockTip sight =>
    rw [taskStep]
    split
    · next enabled =>
      rw [foldl_triggerOne _ _ clear]
      refine ⟨?_, clear⟩
      have moved : (tasks.queued ++ sight.lacking ++ tasks.running).Perm
          (sight.lacking ++ (tasks.queued ++ tasks.running)) := by
        rw [<- append_assoc]
        exact perm_append_comm.append_right _
      refine moved.nodup_iff.trans (nodup_append'.trans ?_)
      exact ⟨fun parts _ => ⟨parts.1, parts.2.2⟩, fun done => ⟨(done enabled).1, one, (done enabled).2⟩⟩
    · next disabled => exact ⟨iff_of_true one fun enabled => absurd enabled disabled, clear⟩
  | start pQuorum =>
    rw [taskStep]
    split
    · next waits =>
      have moved : (tasks.queued.erase pQuorum ++ pQuorum :: tasks.running).Perm
          (tasks.queued ++ tasks.running) :=
        perm_middle.trans ((perm_cons_erase waits).symm.append_right tasks.running)
      exact ⟨iff_of_true (moved.nodup_iff.mpr one) trivial, clear⟩
    · exact ⟨iff_of_true one trivial, clear⟩
  | finish pQuorum =>
    exact ⟨iff_of_true (one.sublist (erase_sublist.append_left _)) trivial, clear⟩

/-- **At most one task per quorum waits or runs at any time, exactly if at every tip the tasks of
the quorums that lack data are done.** -/
theorem one_task_each_iff (events : List TaskEvent) :
    EveryStep taskStep (fun tasks event => OneTaskEach (taskStep tasks event)) {} events <->
      EveryStep taskStep TasksDone {} events := by
  have every : ∀ tasks : RecoveryTasks, tasks.fQuorumDataRecoveryThreadRunning = (fun _ => false) ->
      OneTaskEach tasks ->
      (EveryStep taskStep (fun tasks event => OneTaskEach (taskStep tasks event)) tasks events <->
        EveryStep taskStep TasksDone tasks events) := by
    induction events with
    | nil => exact fun _ _ _ => Iff.rfl
    | cons event _ ih =>
      intro tasks clear one
      have step := oneTaskEach_step event clear one
      constructor
      · rintro ⟨now, later⟩
        exact ⟨step.1.mp now, (ih _ step.2 now).mp later⟩
      · rintro ⟨done, later⟩
        have now := step.1.mpr done
        exact ⟨now, (ih _ step.2 now).mpr later⟩
  exact every {} rfl nodup_nil

/-- Two tips with a quorum that lacks its verification vector. -/
theorem second_tip_second_task : ¬OneTaskEach ((replicate 2 (TaskEvent.updatedBlockTip
      { types := [(.Always, [⟨(1, 5), true, false, true⟩])] })).foldl taskStep {}) := by
  unfold OneTaskEach
  decide +kernel

end StakeCubeCoin.Llmq
