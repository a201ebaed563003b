import StakeCubeCoin.Library.Trace
import StakeCubeCoin.Llmq.InstantSend
import StakeCubeCoin.Validation.TransactionCodec

namespace StakeCubeCoin.Llmq

open Primitives Script Validation Library List Function

/-!
# The requests of the InstantSend manager

`CInstantSendManager` of `llmq/instantsend.cpp` keeps the ids under which it signs inputs, so that
it knows their recovered signatures, and the locks that wait for theirs.  The id of an input is the
hash of an outpoint, but `RemoveConflictedTx` hashes the whole input and so does not find it.  A
lock is kept by the hash of its inputs and found by its transaction, and a lock of somebody else may
have the same inputs and another transaction.
-/

section

variable (hash256 : List UInt8 -> Uint256)

/-- `SerializeHash(std::make_pair(INPUTLOCK_REQUESTID_PREFIX, value))`, given the bytes of the
value. -/
def hashInputLock (value : List UInt8) : Uint256 :=
  hash256 (writeVector "inlock".toUTF8.toList ++ value)

def inputIds (prevouts : List COutPoint) : List Uint256 :=
  prevouts.map fun prevout => hashInputLock hash256 (serializeOutPoint prevout)

def txIds (tx : CTransaction) : List Uint256 :=
  inputIds hash256 (tx.vin.map CTxIn.prevout)

/-- The ids that `RemoveConflictedTx` erases. -/
def erasedIds (tx : CTransaction) : List Uint256 :=
  tx.vin.map fun txin => hashInputLock hash256 (serializeTxIn txin)

end

/-- `inputRequestIds`.  Beside it stand the ids of the inputs of dropped and of locked transactions
that were not inserted since. -/
structure InputRequests where
  inputRequestIds : Uint256 -> Bool := fun _ => false
  ended : Uint256 -> Bool := fun _ => false

/-- The test by which `HandleNewRecoveredSig` takes a signature for an input lock. -/
def InputRequests.isInputLock (state : InputRequests) (id msgHash : Uint256) : Bool :=
  state.inputRequestIds id && msgHash != 0

/-- The ids are erased, and the transaction with the other ids is done with. -/
def InputRequests.erase (state : InputRequests) (ids done : List Uint256) : InputRequests where
  inputRequestIds := fun id => state.inputRequestIds id && !ids.contains id
  ended := fun id => state.ended id || done.contains id

/-- What `ProcessTx` sees: whether it comes to sign the inputs, and the votes and recovered
signatures. -/
structure InputSight where
  allowed : Bool
  fRetroactive : Bool
  getVoteForId : Uint256 -> Option Uint256
  isConflicting : Uint256 -> Uint256 -> Bool

inductive InputEvent where
  | processTx (sight : InputSight) (tx : CTransaction)
  /-- A call from `BlockConnected`, `RemoveMempoolConflictsForLock` or `ResolveBlockConflicts`. -/
  | removeConflictedTx (tx : CTransaction)
  /-- `ProcessInstantSendLock` accepts a lock for the transaction. -/
  | locked (islock : CInstantSendLock) (tx : CTransaction)

section

variable (hash256 : List UInt8 -> Uint256)

def trySignInputLocks (sight : InputSight) (tx : CTransaction) (state : InputRequests) :
    InputRequests :=
  let ids := txIds hash256 tx
  if ids.any fun id => (sight.getVoteForId id).any (· != tx.hash) ||
    sight.isConflicting id tx.hash then state
  else if !sight.fRetroactive && ids.all fun id => (sight.getVoteForId id).isSome then state
  else
    { inputRequestIds := fun id => state.inputRequestIds id || ids.contains id
      ended := fun id => state.ended id && !ids.contains id }

variable (state : InputRequests)

def inputStep : InputEvent -> InputRequests
  | .processTx sight tx => if sight.allowed then trySignInputLocks hash256 sight tx state else state
  | .removeConflictedTx tx => state.erase (erasedIds hash256 tx) (txIds hash256 tx)
  -- `TruncateRecoveredSigsForInputs`
  | .locked islock tx => state.erase (inputIds hash256 islock.inputs) (txIds hash256 tx)

/-- The id of an input of a dropped or locked transaction is not there, and a signature for it is
not taken for an input lock. -/
def NoneOutlives : Prop :=
  ∀ id, state.ended id = true -> state.inputRequestIds id = false /\ ∀ msgHash,
    state.isInputLock id msgHash = false

/-- A transaction that is dropped has no input whose id is there, and a lock has all such inputs of
its transaction. -/
def EndsUnsigned : InputEvent -> Prop
  | .processTx _ _ => True
  | .removeConflictedTx tx => ∀ id ∈ txIds hash256 tx, state.inputRequestIds id = false
  | .locked islock tx => ∀ id ∈ txIds hash256 tx, state.inputRequestIds id = true ->
    id ∈ inputIds hash256 islock.inputs

/-- The hash does not collide on what is hashed for the inputs of a transaction that is dropped. -/
def CollisionFree : InputEvent -> Prop
  | .removeConflictedTx tx => ∀ txin other, txin ∈ tx.vin -> other ∈ tx.vin ->
    hashInputLock hash256 (serializeTxIn txin) = hashInputLock hash256
      (serializeOutPoint other.prevout) -> serializeTxIn txin = serializeOutPoint other.prevout
  | _ => True

end

section

variable {hash256 : List UInt8 -> Uint256} {state : InputRequests}

theorem serializeTxIn_ne (txin : CTxIn) (prevout : COutPoint) :
    serializeTxIn txin ≠ serializeOutPoint prevout := by
  intro same
  have lengths := congrArg length same
  simp only [serializeTxIn, serializeOutPoint, length_append, length_littleEndian] at lengths
  omega

theorem noneOutlives_iff : NoneOutlives state <-> ∀ id, state.ended id = true ->
    state.inputRequestIds id = false := by
  constructor
  · exact fun none id done => (none id done).1
  · intro none id done
    refine ⟨none id done, fun msgHash => ?_⟩
    rw [InputRequests.isInputLock, none id done, Bool.false_and]

/-- Erasing leaves no id behind if it erases what is there of the ids that are done with. -/
theorem noneOutlives_erase (none : NoneOutlives state) (ids done : List Uint256) :
    NoneOutlives (state.erase ids done) <-> ∀ id ∈ done, state.inputRequestIds id = true -> id ∈ ids := by
  rw [noneOutlives_iff] at none ⊢
  constructor
  · intro after id member there
    have gone := after id (by simp [InputRequests.erase, member])
    simpa [InputRequests.erase, there] using gone
  intro found id ends
  rcases Bool.or_eq_true_iff.mp ends with before | now
  · simp [InputRequests.erase, none id before]
  · cases there : state.inputRequestIds id with
    | false => simp [InputRequests.erase, there]
    | true => simp [InputRequests.erase, found id (by simpa using now) there]

theorem noneOutlives_step (none : NoneOutlives state) {event : InputEvent}
    (free : CollisionFree hash256 event) :
    NoneOutlives (inputStep hash256 state event) <-> EndsUnsigned hash256 state event := by
  cases event with
  | processTx sight tx =>
    refine iff_of_true ?_ trivial
    rw [noneOutlives_iff] at none ⊢
    simp only [inputStep, trySignInputLocks]
    split
    · split
      · exact none
      split
      · exact none
      · intro id ends
        rw [Bool.and_eq_true_iff, Bool.not_eq_true'] at ends
        simp only [none id ends.1, ends.2, Bool.or_false]
    · exact none
  | removeConflictedTx tx =>
    refine (noneOutlives_erase none _ _).trans ⟨fun found id member => ?_, fun absent id member there => ?_⟩
    · -- What is erased is the hash of other bytes.
      rw [<- Bool.not_eq_true]
      intro there
      rcases mem_map.mp (found id member there) with ⟨txin, listed, rfl⟩
      simp only [txIds, inputIds, map_map, mem_map, comp_apply] at member
      rcases member with ⟨other, present, same⟩
      exact serializeTxIn_ne txin other.prevout (free txin other listed present same.symm)
    · rw [absent id member] at there
      cases there
  | locked islock tx => exact noneOutlives_erase none _ _

/-- **The ids of dropped and locked transactions are gone in every state exactly if no transaction
is dropped while the id of one of its inputs is there**, and locks are for the inputs of their
transactions. -/
theorem none_outlives_iff (events : List InputEvent)
    (free : ∀ event ∈ events, CollisionFree hash256 event) :
    EveryStep (inputStep hash256) (fun state event => NoneOutlives (inputStep hash256 state event))
      {} events <-> EveryStep (inputStep hash256) (EndsUnsigned hash256) {} events := by
  have begins : NoneOutlives {} := fun _ done => by cases done
  revert begins
  generalize ({} : InputRequests) = state
  intro begins
  induction events generalizing state with
  | nil => rfl
  | cons event _ ih =>
    have here := noneOutlives_step begins (free event (.head _))
    have later := ih (forall_mem_cons.mp free).2 (inputStep hash256 state event)
    constructor
    · rintro ⟨first, rest⟩
      exact ⟨here.mp first, (later first).mp rest⟩
    · rintro ⟨first, rest⟩
      exact ⟨here.mpr first, (later (here.mpr first)).mpr rest⟩

def lengthHash (bytes : List UInt8) : Uint256 :=
  BitVec.ofNat 256 bytes.length

def oneInput : CTransaction :=
  { vin := [{ prevout := ⟨1, 0⟩ }], vout := [], hash := 2 }

/-- It is processed by a masternode that has not voted. -/
def oneProcessed : InputEvent :=
  .processTx ⟨true, false, fun _ => none, fun _ _ => false⟩ oneInput

/-- A lock for it is accepted, and only then it is dropped. -/
theorem none_outlives_locked :
    (∀ id ∈ txIds lengthHash oneInput, (inputStep lengthHash {} oneProcessed).inputRequestIds id = true) /\
      EveryStep (inputStep lengthHash) (fun state event => NoneOutlives (inputStep lengthHash state event)) {}
        [oneProcessed, .locked ⟨0, [⟨1, 0⟩], 2, 0, 0⟩ oneInput, .removeConflictedTx oneInput] := by
  have free : CollisionFree lengthHash (.removeConflictedTx oneInput) := by
    intro txin other first second
    cases mem_singleton.mp first
    cases mem_singleton.mp second
    decide +kernel
  refine ⟨by simp [oneProcessed, inputStep, trySignInputLocks, txIds, inputIds, oneInput],
    (none_outlives_iff _ ?_).mpr ⟨trivial, fun _ member _ => member, ?_, trivial⟩⟩
  · exact forall_mem_cons.mpr ⟨trivial, forall_mem_cons.mpr ⟨trivial, forall_mem_singleton.mpr free⟩⟩
  · intro id member
    simp only [inputStep, InputRequests.erase, Bool.and_eq_false_iff, Bool.not_eq_false']
    exact .inr (contains_iff_mem.mpr member)

/-- It is processed, and then dropped. -/
def droppedLater : InputRequests :=
  [oneProcessed, .removeConflictedTx oneInput].foldl (inputStep lengthHash) {}

/-- The id of its input stays, and a signature for it is taken for an input lock. -/
theorem dropped_input_stays : ∃ id ∈ txIds lengthHash oneInput, droppedLater.ended id = true /\
      droppedLater.inputRequestIds id = true /\ droppedLater.isInputLock id 2 = true := by
  refine ⟨hashInputLock lengthHash (serializeOutPoint ⟨1, 0⟩), ?_⟩
  decide +kernel

end

/-! ## Locks that are being created -/

/-- The two maps.  A pointer into the first one is written as the key of its entry. -/
structure CreatingLocks where
  creatingInstantSendLocks : Uint256 -> Option CInstantSendLock := fun _ => none
  txToCreatingInstantSendLocks : Uint256 -> Option Uint256 := fun _ => none

/-- The test by which `ProcessPendingRetryLockTxs` skips a transaction. -/
def CreatingLocks.skipsRetry (locks : CreatingLocks) (txid : Uint256) : Bool :=
  (locks.txToCreatingInstantSendLocks txid).isSome

/-- The first map forgets an id and the second one a transaction. -/
def CreatingLocks.erase (locks : CreatingLocks) (id txid : Uint256) : CreatingLocks where
  creatingInstantSendLocks := update locks.creatingInstantSendLocks id none
  txToCreatingInstantSendLocks := update locks.txToCreatingInstantSendLocks txid none

/-- The hashes, and what `TrySignInstantSendLock` asks of the signing manager and of the chain. -/
structure LockSight where
  hash256 : List UInt8 -> Uint256
  hasRecoveredSig : Uint256 -> Uint256 -> Bool
  hasRecoveredSigForId : Uint256 -> Bool
  cycleHash : Uint256

inductive CreatingEvent where
  | trySign (sight : LockSight) (tx : CTransaction)
  | recoveredSig (id : Uint256)
  | process (islock : CInstantSendLock)

section

variable (getRequestId : List COutPoint -> Uint256) (locks : CreatingLocks)

def trySignInstantSendLock (sight : LockSight) (tx : CTransaction) : CreatingLocks :=
  if (txIds sight.hash256 tx).all fun id => sight.hasRecoveredSig id tx.hash then
    let islock : CInstantSendLock :=
      { nVersion := 1, inputs := tx.vin.map CTxIn.prevout, txid := tx.hash, cycleHash := sight.cycleHash, sig := 0 }
    let id := getRequestId islock.inputs
    if sight.hasRecoveredSigForId id || (locks.creatingInstantSendLocks id).isSome then locks
    else
      { creatingInstantSendLocks := update locks.creatingInstantSendLocks id (some islock)
        txToCreatingInstantSendLocks :=
          if (locks.txToCreatingInstantSendLocks tx.hash).isSome then locks.txToCreatingInstantSendLocks
          else update locks.txToCreatingInstantSendLocks tx.hash (some id) }
  else locks

def creatingStep : CreatingEvent -> CreatingLocks
  | .trySign sight tx => trySignInstantSendLock getRequestId locks sight tx
  -- `HandleNewInstantSendLockRecoveredSig`
  | .recoveredSig id =>
    match locks.creatingInstantSendLocks id with
    | none => locks
    | some islock => locks.erase id islock.txid
  -- `ProcessInstantSendLock`
  | .process islock => locks.erase (getRequestId islock.inputs) islock.txid

/-- The second map has exactly the transactions of the entries of the first one, each with its own
entry. -/
def Tracked : Prop :=
  ∀ txid id, locks.txToCreatingInstantSendLocks txid = some id <->
    ∃ islock, locks.creatingInstantSendLocks id = some islock /\ islock.txid = txid

/-- A transaction that is being locked has the inputs of the one to be signed, and a lock agrees
with the entries for its inputs and for its transaction. -/
def AgreesWith : CreatingEvent -> Prop
  | .trySign _ tx => locks.txToCreatingInstantSendLocks tx.hash = none \/
    (locks.creatingInstantSendLocks (getRequestId (tx.vin.map CTxIn.prevout))).isSome = true
  | .recoveredSig _ => True
  | .process islock =>
    (∀ own, locks.creatingInstantSendLocks (getRequestId islock.inputs) = some own -> own.txid = islock.txid) /\
    ∀ id, locks.txToCreatingInstantSendLocks islock.txid = some id -> id = getRequestId islock.inputs

end

variable {getRequestId : List COutPoint -> Uint256} {locks : CreatingLocks}

theorem Tracked.erase (tracked : Tracked locks) {id txid : Uint256}
    (own : ∀ islock, locks.creatingInstantSendLocks id = some islock -> islock.txid = txid)
    (only : ∀ key, locks.txToCreatingInstantSendLocks txid = some key -> key = id) :
    Tracked (locks.erase id txid) := by
  intro other key
  simp only [CreatingLocks.erase, update_apply]
  constructor
  · intro pointed
    have different : other ≠ txid := by grind
    rcases (tracked other key).mp (by simpa [different] using pointed) with ⟨islock, found, named⟩
    exact ⟨islock, by grind, named⟩
  · rintro ⟨islock, found, rfl⟩
    have elsewhere : key ≠ id := by grind
    have pointed := (tracked islock.txid key).mpr ⟨islock, by simpa [elsewhere] using found, rfl⟩
    grind

theorem Tracked.step (tracked : Tracked locks) {event : CreatingEvent}
    (agrees : AgreesWith getRequestId locks event) :
    Tracked (creatingStep getRequestId locks event) := by
  cases event with
  | trySign sight tx =>
    simp only [creatingStep, trySignInstantSendLock]
    split
    · split
      · exact tracked
      next new =>
      rw [Bool.not_eq_true, Bool.or_eq_false_iff, Option.isSome_eq_false_iff, Option.isNone_iff_eq_none] at new
      have free := agrees.resolve_right (by simp [new.2])
      intro txid key
      have before := tracked txid key
      simp only [free, Option.isSome_none, Bool.false_eq_true, if_false, update_apply]
      by_cases here : key = getRequestId (tx.vin.map CTxIn.prevout)
      · rw [here, new.2] at before
        simp only [here, if_true, Option.some.injEq, exists_eq_left']
        grind
      · simp only [here, if_false, <- before]
        grind
    · exact tracked
  | recoveredSig id =>
    simp only [creatingStep]
    split
    · exact tracked
    · next islock found =>
      refine tracked.erase (by grind) fun other pointed => ?_
      have here := (tracked islock.txid id).mpr ⟨islock, found, rfl⟩
      exact Option.some.inj (pointed.symm.trans here)
  | process islock => exact tracked.erase agrees.1 agrees.2

/-- **The locks that are being created are tracked in every state of a run in which processed locks
agree with them**, and only their transactions are skipped. -/
theorem tracked_of_agrees (events : List CreatingEvent)
    (agrees : EveryStep (creatingStep getRequestId) (AgreesWith getRequestId) {} events) :
    EveryStep (creatingStep getRequestId)
      (fun locks event => Tracked (creatingStep getRequestId locks event) /\
        ∀ txid, (creatingStep getRequestId locks event).skipsRetry txid = true ->
          ∃ id islock, (creatingStep getRequestId locks event).creatingInstantSendLocks id =
            some islock /\ islock.txid = txid) {} events := by
  refine EveryStep.of_invariant (fun _ _ tracked agrees => Tracked.step tracked agrees) ?_
    (by simp [Tracked]) agrees
  intro locks event tracked agrees
  refine ⟨tracked.step agrees, fun txid skips => ?_⟩
  rcases Option.isSome_iff_exists.mp skips with ⟨id, pointed⟩
  exact ⟨id, (tracked.step agrees txid id).mp pointed⟩

/-- All inputs of the sample are signed, and a lock is created for it. -/
def signsOneInput : CreatingEvent :=
  .trySign ⟨lengthHash, fun _ _ => true, fun _ => false, 0⟩ oneInput

def lockFor (txid : Uint256) : CreatingEvent :=
  .process { nVersion := 1, inputs := [⟨1, 0⟩], txid, cycleHash := 0, sig := 1 }

def countInputs (inputs : List COutPoint) : Uint256 :=
  BitVec.ofNat 256 inputs.length

theorem tracked_own_lock :
    Tracked ([signsOneInput, lockFor 2].foldl (creatingStep countInputs) {}) := by
  refine (tracked_of_agrees [signsOneInput, lockFor 2] ⟨.inl rfl, ⟨?_, ?_⟩, trivial⟩).2.1.1
  · intro own found
    cases found
    rfl
  · intro id pointed
    cases pointed
    rfl

/-- A lock with the same input for another transaction leaves the first one without its entry, and
skipped. -/
theorem foreign_lock_leaves_pointer :
    ([signsOneInput, lockFor 3].foldl (creatingStep countInputs) {}).skipsRetry 2 = true /\
      ¬Tracked ([signsOneInput, lockFor 3].foldl (creatingStep countInputs) {}) := by
  refine ⟨by decide +kernel, fun tracked => ?_⟩
  rcases (tracked 2 1).mp (by decide +kernel) with ⟨_, found, _⟩
  cases found

end StakeCubeCoin.Llmq
