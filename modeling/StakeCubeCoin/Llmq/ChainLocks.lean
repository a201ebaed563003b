import StakeCubeCoin.Library.Trace
import StakeCubeCoin.Chain.BlockIndex

namespace StakeCubeCoin.Llmq

open Primitives Chain Library

/-!
# The handler of chainlocks

`CChainLocksHandler` of `llmq/chainlocks.{h,cpp}` as far as it records chainlocks.
`ProcessNewChainLock` takes the lock of the handler twice, and verifies the signature and
looks up the block in between, so a call is cut into the sections during which nothing else
can happen.  Any number of calls may be in flight.
-/

structure CChainLockSig where
  nHeight : Int := -1
  blockHash : Uint256 := 0
  sig : List UInt8 := []
  deriving DecidableEq

def CChainLockSig.isNull (clsig : CChainLockSig) : Bool :=
  clsig.nHeight == -1 && clsig.blockHash == 0

/-- `CChainLocksHandler`.  The pointers to block index entries are the hashes of the entries. -/
structure CChainLocksHandler where
  isEnabled : Bool := false
  isEnforced : Bool := false
  bestChainLockHash : Uint256 := 0
  bestChainLock : CChainLockSig := {}
  bestChainLockWithKnownBlock : CChainLockSig := {}
  bestChainLockBlockIndex : Option Uint256 := none
  lastNotifyChainLockBlockIndex : Option Uint256 := none
  seenChainLocks : List (Uint256 × Int) := []

/-- How long a chainlock is remembered as seen, in milliseconds. -/
def CLEANUP_SEEN_TIMEOUT : Int := 24 * 60 * 60 * 1000

namespace CChainLocksHandler

variable (handler : CChainLocksHandler)

/-- `CheckActiveState`.  The flags are set and the chainlocks are reset in one section, though only
the reset takes the lock: a chainlock that another thread records between the two is lost in the
source. -/
def checkActiveState (fDIP0008Active areChainLocksEnabled : Bool) : CChainLocksHandler :=
  let checked : CChainLocksHandler :=
    { handler with
      isEnabled := areChainLocksEnabled, isEnforced := fDIP0008Active && areChainLocksEnabled }
  if !handler.isEnforced && checked.isEnforced then
    { checked with
      bestChainLockHash := 0, bestChainLock := {}, bestChainLockWithKnownBlock := {},
      bestChainLockBlockIndex := none, lastNotifyChainLockBlockIndex := none }
  else checked

/-- The first locked section of `ProcessNewChainLock`, and whether the call goes on. -/
def checkSeen (clsig : CChainLockSig) (hash : Uint256) (now : Int) : Bool × CChainLocksHandler :=
  if handler.seenChainLocks.any fun seen => seen.1 == hash then (false, handler)
  else
    let seen := { handler with seenChainLocks := (hash, now) :: handler.seenChainLocks }
    if !handler.bestChainLock.isNull && decide (clsig.nHeight <= handler.bestChainLock.nHeight) then
      (false, seen)
    else (true, seen)

/-- The second locked section of `ProcessNewChainLock`. -/
def update (map : BlockMap) (clsig : CChainLockSig) (hash : Uint256)
    (pindex : Option Uint256) : CChainLocksHandler :=
  let recorded := { handler with bestChainLockHash := hash, bestChainLock := clsig }
  match pindex with
  | none => recorded
  | some block =>
    if (map.height block : Int) ≠ clsig.nHeight then recorded
    else { recorded with bestChainLockWithKnownBlock := clsig, bestChainLockBlockIndex := some block }

def acceptedBlockHeader (map : BlockMap) (pindexNew : Uint256) : CChainLocksHandler :=
  if pindexNew = handler.bestChainLock.blockHash then
    if handler.bestChainLock.nHeight ≠ (map.height pindexNew : Int) then handler
    else
      { handler with
        bestChainLockWithKnownBlock := handler.bestChainLock,
        bestChainLockBlockIndex := some pindexNew }
  else handler

/-- `CChainLocksHandler::Cleanup`, on the chainlocks that were seen. -/
def cleanup (now : Int) : CChainLocksHandler :=
  { handler with
    seenChainLocks := handler.seenChainLocks.filter fun seen =>
      !decide (CLEANUP_SEEN_TIMEOUT <= now - seen.2) }

end CChainLocksHandler

/-- Where a call of `ProcessNewChainLock` stands after its first locked section. -/
inductive LockCall where
  | verifying (clsig : CChainLockSig) (hash : Uint256)
  | lookingUp (clsig : CChainLockSig) (hash : Uint256)
  | updating (clsig : CChainLockSig) (hash : Uint256) (pindex : Option Uint256)

/-- The handler, the block index it looks into, and the calls in flight. -/
structure LockState where
  handler : CChainLocksHandler := {}
  map : BlockMap
  calls : Nat -> Option LockCall := fun _ => none

/-- One section.  The answer of `VerifyRecoveredSig` comes with the event, since it depends on
the quorums known at that moment. -/
inductive LockEvent where
  | checkActiveState (fDIP0008Active areChainLocksEnabled : Bool)
  | check (call : Nat) (clsig : CChainLockSig) (hash : Uint256) (now : Int)
  | verify (call : Nat) (valid : Bool)
  | lookup (call : Nat)
  | update (call : Nat)
  | addToBlockIndex (hash : Uint256) (entry : CBlockIndex)
  | acceptedBlockHeader (pindexNew : Uint256)
  | cleanup (now : Int)

namespace LockState

variable (state : LockState)

def setCall (call : Nat) (place : Option LockCall) : LockState :=
  { state with calls := Function.update state.calls call place }

def lookupBlockIndex (hash : Uint256) : Option Uint256 :=
  (state.map hash).map fun _ => hash

/-- The effect of one section.  A section that its call has not come to has none. -/
def step : LockEvent -> LockState
  | .checkActiveState fDIP0008Active areChainLocksEnabled =>
    { state with handler := state.handler.checkActiveState fDIP0008Active areChainLocksEnabled }
  | .check call clsig hash now =>
    match state.calls call with
    | some _ => state
    | none =>
      let admitted := state.handler.checkSeen clsig hash now
      ({ state with handler := admitted.2 }).setCall call
        (if admitted.1 then some (.verifying clsig hash) else none)
  | .verify call valid =>
    match state.calls call with
    | some (.verifying clsig hash) =>
      state.setCall call (if valid then some (.lookingUp clsig hash) else none)
    | _ => state
  | .lookup call =>
    match state.calls call with
    | some (.lookingUp clsig hash) =>
      state.setCall call (some (.updating clsig hash (state.lookupBlockIndex clsig.blockHash)))
    | _ => state
  | .update call =>
    match state.calls call with
    | some (.updating clsig hash pindex) =>
      ({ state with handler := state.handler.update state.map clsig hash pindex }).setCall call none
    | _ => state
  | .addToBlockIndex hash entry =>
    match state.map hash with
    | some _ => state
    | none => { state with map := Function.update state.map hash (some entry) }
  | .acceptedBlockHeader pindexNew =>
    match state.map pindexNew with
    | some _ => { state with handler := state.handler.acceptedBlockHeader state.map pindexNew }
    | none => state
  | .cleanup now => { state with handler := state.handler.cleanup now }

end LockState

/-! ## What a section does to the recorded chainlocks -/

namespace LockState

/-- A block that a call has found is the block of its chainlock.  The call has looked it up in an
earlier section, and entries of the block index are never removed. -/
def Located (state : LockState) : Prop :=
  ∀ call clsig hash block, state.calls call = some (.updating clsig hash (some block)) ->
    block = clsig.blockHash /\ (state.map block).isSome = true

/-- The chainlock is the recorded one, or the event is the update of a call with it. -/
def Offers (state : LockState) (event : LockEvent) (lock : CChainLockSig) : Prop :=
  lock = state.handler.bestChainLock \/
    ∃ call hash, ∃ pindex, event = .update call /\ state.calls call = some (.updating lock hash pindex)

/-- The four things a section can do to the recorded chainlocks. -/
inductive Outcome (state : LockState) (event : LockEvent) (after : LockState) : Prop
  | kept
    (best : after.handler.bestChainLock = state.handler.bestChainLock)
    (known : after.handler.bestChainLockWithKnownBlock = state.handler.bestChainLockWithKnownBlock)
    (index : after.handler.bestChainLockBlockIndex = state.handler.bestChainLockBlockIndex)
    (enforced : after.handler.isEnforced = true -> state.handler.isEnforced = true)
  | reset
    (off : state.handler.isEnforced = false)
    (best : after.handler.bestChainLock = {})
    (known : after.handler.bestChainLockWithKnownBlock = {})
    (index : after.handler.bestChainLockBlockIndex = none)
  | noted (lock : CChainLockSig)
    (offers : state.Offers event lock)
    (best : after.handler.bestChainLock = lock)
    (known : after.handler.bestChainLockWithKnownBlock = state.handler.bestChainLockWithKnownBlock)
    (index : after.handler.bestChainLockBlockIndex = state.handler.bestChainLockBlockIndex)
    (enforced : after.handler.isEnforced = state.handler.isEnforced)
  | matched (lock : CChainLockSig)
    (offers : state.Offers event lock)
    (best : after.handler.bestChainLock = lock)
    (known : after.handler.bestChainLockWithKnownBlock = lock)
    (index : after.handler.bestChainLockBlockIndex = some lock.blockHash)
    (indexed : (after.map lock.blockHash).isSome = true)
    (height : (after.map.height lock.blockHash : Int) = lock.nHeight)
    (enforced : after.handler.isEnforced = state.handler.isEnforced)

variable {state : LockState}

theorem Outcome.of_handler_eq {after : LockState} {event : LockEvent}
    (same : after.handler = state.handler) : Outcome state event after := by
  refine .kept ?_ ?_ ?_ ?_
  · rw [same]
  · rw [same]
  · rw [same]
  · rw [same]
    exact id

theorem outcome_checkActiveState (state : LockState) (active enabled : Bool) :
    Outcome state (.checkActiveState active enabled) (state.step (.checkActiveState active enabled)) := by
  by_cases activated : (!state.handler.isEnforced && (active && enabled)) = true
  · have handler : (state.step (.checkActiveState active enabled)).handler =
      { state.handler with
        isEnabled := enabled, isEnforced := active && enabled,
        bestChainLockHash := 0, bestChainLock := {}, bestChainLockWithKnownBlock := {},
        bestChainLockBlockIndex := none, lastNotifyChainLockBlockIndex := none } := if_pos activated
    rw [Bool.and_eq_true, Bool.not_eq_true'] at activated
    refine .reset activated.1 ?_ ?_ ?_
    · rw [handler]
    · rw [handler]
    · rw [handler]
  · have handler : (state.step (.checkActiveState active enabled)).handler =
      { state.handler with isEnabled := enabled, isEnforced := active && enabled } := if_neg activated
    refine .kept ?_ ?_ ?_ ?_
    · rw [handler]
    · rw [handler]
    · rw [handler]
    rw [handler]
    intro on
    cases before : state.handler.isEnforced with
    | true => rfl
    | false =>
      change (active && enabled) = true at on
      exact absurd (by rw [before, on]; rfl) activated

theorem outcome_update (state : LockState) (located : state.Located) (call : Nat) :
    Outcome state (.update call) (state.step (.update call)) := by
  simp only [step]
  split
  · next clsig hash pindex found =>
    have offers : state.Offers (.update call) clsig := .inr ⟨call, hash, pindex, rfl, found⟩
    cases pindex with
    | none => exact .noted clsig offers rfl rfl rfl rfl
    | some block =>
      by_cases mismatch : (state.map.height block : Int) ≠ clsig.nHeight
      · have handler : state.handler.update state.map clsig hash (some block) =
          { state.handler with bestChainLockHash := hash, bestChainLock := clsig } :=
          if_pos mismatch
        rw [handler]
        exact .noted clsig offers rfl rfl rfl rfl
      · have handler : state.handler.update state.map clsig hash (some block) =
          { state.handler with
            bestChainLockHash := hash, bestChainLock := clsig,
            bestChainLockWithKnownBlock := clsig, bestChainLockBlockIndex := some block } :=
          if_neg mismatch
        rcases located call clsig hash block found with ⟨same, indexed⟩
        subst same
        rw [handler]
        exact .matched clsig offers rfl rfl rfl indexed (not_ne_iff.mp mismatch) rfl
  · exact .of_handler_eq rfl

theorem outcome_acceptedBlockHeader (state : LockState) (pindexNew : Uint256) :
    Outcome state (.acceptedBlockHeader pindexNew) (state.step (.acceptedBlockHeader pindexNew)) := by
  simp only [step]
  split
  · next _ found =>
    unfold CChainLocksHandler.acceptedBlockHeader
    split
    · next late =>
      split
      · exact .of_handler_eq rfl
      next agrees =>
      have indexed : (state.map state.handler.bestChainLock.blockHash).isSome = true := by
        rw [<- late, found]
        rfl
      have height : (state.map.height state.handler.bestChainLock.blockHash : Int) =
        state.handler.bestChainLock.nHeight := by
        rw [<- late]
        exact (not_ne_iff.mp agrees).symm
      exact .matched state.handler.bestChainLock (.inl rfl) rfl rfl (congrArg some late)
        indexed height rfl
    · exact .of_handler_eq rfl
  · exact .of_handler_eq rfl

theorem step_outcome (state : LockState) (located : state.Located) (event : LockEvent) :
    Outcome state event (state.step event) := by
  cases event with
  | checkActiveState active enabled => exact outcome_checkActiveState state active enabled
  | check call clsig hash now =>
    simp only [step]
    split
    · exact .of_handler_eq rfl
    have same : ∃ seen, (state.handler.checkSeen clsig hash now).2 =
        { state.handler with seenChainLocks := seen } := by
      unfold CChainLocksHandler.checkSeen
      split
      · exact ⟨state.handler.seenChainLocks, rfl⟩
      · split <;> exact ⟨_, rfl⟩
    rcases same with ⟨_, same⟩
    refine .kept ?_ ?_ ?_ ?_
    · change (state.handler.checkSeen clsig hash now).2.bestChainLock = _
      rw [same]
    · change (state.handler.checkSeen clsig hash now).2.bestChainLockWithKnownBlock = _
      rw [same]
    · change (state.handler.checkSeen clsig hash now).2.bestChainLockBlockIndex = _
      rw [same]
    · rw [same]
      exact id
  | update call => exact outcome_update state located call
  | verify | lookup | addToBlockIndex =>
    apply Outcome.of_handler_eq
    simp only [step]
    split <;> rfl
  | acceptedBlockHeader pindexNew => exact outcome_acceptedBlockHeader state pindexNew
  | cleanup now => exact .kept rfl rfl rfl id

/-! ## What is always so -/

theorem map_step (state : LockState) (event : LockEvent) {hash : Uint256}
    (indexed : (state.map hash).isSome = true) : (state.step event).map hash = state.map hash := by
  cases event with
  | addToBlockIndex other _ =>
    simp only [step]
    split
    · rfl
    next absent =>
    have different : hash ≠ other := by
      intro same
      rw [same, absent] at indexed
      cases indexed
    exact Function.update_of_ne different _ _
  | checkActiveState _ _ => rfl
  | check | verify | lookup | update | acceptedBlockHeader =>
    simp only [step]
    split <;> rfl
  | cleanup _ => rfl

/-- A call that is about to update was so before, or has just looked its block up. -/
theorem calls_step (state : LockState) (event : LockEvent) {call : Nat} {clsig : CChainLockSig}
    {hash : Uint256} {pindex : Option Uint256}
    (found : (state.step event).calls call = some (.updating clsig hash pindex)) :
    state.calls call = some (.updating clsig hash pindex) \/
      pindex = state.lookupBlockIndex clsig.blockHash := by
  -- A section that moves another call, or moves this one elsewhere, is one of the first kind.
  have moved : ∀ other place, (Function.update state.calls other place) call =
    some (.updating clsig hash pindex) ->
    place ≠ some (.updating clsig hash pindex) ->
    state.calls call = some (.updating clsig hash pindex) := by
    intro other place now elsewhere
    by_cases same : call = other
    · subst same
      rw [Function.update_self] at now
      exact absurd now elsewhere
    · rwa [Function.update_of_ne same] at now
  cases event with
  | checkActiveState _ _ => exact .inl found
  | check other _ _ now =>
    simp only [step] at found
    split at found
    · exact .inl found
    · refine .inl (moved other _ found ?_)
      split <;> simp
  | verify other _ =>
    simp only [step] at found
    split at found
    · refine .inl (moved other _ found ?_)
      split <;> simp
    · exact .inl found
  | lookup other =>
    simp only [step] at found
    split at found
    · next _ _ _ =>
      by_cases same : call = other
      · subst same
        change Function.update state.calls call _ call = _ at found
        rw [Function.update_self] at found
        cases found
        exact .inr rfl
      · change Function.update state.calls other _ call = _ at found
        rw [Function.update_of_ne same] at found
        exact .inl found
    · exact .inl found
  | update other =>
    simp only [step] at found
    split at found
    · exact .inl (moved other none found (by simp))
    · exact .inl found
  | addToBlockIndex | acceptedBlockHeader =>
    simp only [step] at found
    split at found <;> exact .inl found
  | cleanup now => exact .inl found

theorem Located.step (located : state.Located) (event : LockEvent) :
    (state.step event).Located := by
  intro call clsig hash block found
  have before : block = clsig.blockHash /\ (state.map block).isSome = true := by
    cases state.calls_step event found with
    | inl earlier => exact located call clsig hash block earlier
    | inr looked =>
      unfold lookupBlockIndex at looked
      cases entry : state.map clsig.blockHash with
      | none =>
        rw [entry] at looked
        cases looked
      | some _ =>
        rw [entry] at looked
        cases looked
        exact ⟨rfl, by rw [entry]; rfl⟩
  refine ⟨before.1, ?_⟩
  rw [state.map_step event before.2]
  exact before.2

/-- The recorded block is the one of the recorded chainlock with a known block. -/
def Indexed (state : LockState) : Prop :=
  ∀ block, state.handler.bestChainLockBlockIndex = some block ->
    block = state.handler.bestChainLockWithKnownBlock.blockHash /\ (state.map block).isSome = true /\
      (state.map.height block : Int) = state.handler.bestChainLockWithKnownBlock.nHeight

theorem Indexed.step (indexed : state.Indexed) (located : state.Located)
    (event : LockEvent) : (state.step event).Indexed := by
  -- An unchanged pointer stays right because the block index only grows.
  have unchanged : ∀ block, state.handler.bestChainLockBlockIndex = some block ->
    block = state.handler.bestChainLockWithKnownBlock.blockHash /\
      ((state.step event).map block).isSome = true /\
      ((state.step event).map.height block : Int) =
        state.handler.bestChainLockWithKnownBlock.nHeight := by
    intro block pointed
    rcases indexed block pointed with ⟨same, present, height⟩
    rw [BlockMap.height, state.map_step event present]
    exact ⟨same, present, height⟩
  intro block pointed
  cases state.step_outcome located event with
  | reset _ best known index =>
    rw [index] at pointed
    cases pointed
  | kept _ known index _ | noted _ _ _ known index _ =>
    rw [index] at pointed
    rw [known]
    exact unchanged block pointed
  | matched lock offers best known index present height enforced =>
    rw [index] at pointed
    cases pointed
    rw [known]
    exact ⟨rfl, present, height⟩

end LockState

/-! ## The order of chainlocks -/

namespace LockState

/-- No chainlock goes backwards over a step, and the pointer to the locked block is right: it points
to the block of the recorded chainlock, at the height that the chainlock gives. -/
structure Forward (before after : LockState) : Prop where
  best : before.handler.bestChainLock.nHeight <= after.handler.bestChainLock.nHeight
  known : before.handler.bestChainLockWithKnownBlock.nHeight <=
    after.handler.bestChainLockWithKnownBlock.nHeight
  index : ∀ block, after.handler.bestChainLockBlockIndex = some block ->
    block = after.handler.bestChainLockWithKnownBlock.blockHash /\
      (after.map.height block : Int) = after.handler.bestChainLockWithKnownBlock.nHeight

variable (state : LockState)

/-- A step that enforcement is on before and after goes forward. -/
def ForwardWhileEnforced (event : LockEvent) : Prop :=
  state.handler.isEnforced = true -> (state.step event).handler.isEnforced = true ->
    Forward state (state.step event)

/-- A call comes to its second locked section before a higher chainlock was recorded. -/
def NotOvertaken : LockEvent -> Prop
  | .update call =>
    match state.calls call with
    | some (.updating clsig _ _) => state.handler.bestChainLock.nHeight <= clsig.nHeight
    | _ => True
  | _ => True

def NotOvertakenWhileEnforced (event : LockEvent) : Prop :=
  state.handler.isEnforced = true -> state.NotOvertaken event

variable {state : LockState}

theorem Offers.le {event : LockEvent} {lock : CChainLockSig}
    (offers : state.Offers event lock) (inTime : state.NotOvertaken event) :
    state.handler.bestChainLock.nHeight <= lock.nHeight := by
  rcases offers with same | ⟨_, _, _, update, found⟩
  · apply Int.le_of_eq
    rw [same]
  · subst update
    simp only [NotOvertaken, found] at inTime
    exact inTime

/-- What holds in every reached state in which calls were not overtaken. -/
structure Ordered (state : LockState) : Prop where
  located : state.Located
  indexed : state.Indexed
  order : state.handler.isEnforced = true ->
    state.handler.bestChainLockWithKnownBlock.nHeight <= state.handler.bestChainLock.nHeight

theorem Ordered.step (ordered : state.Ordered) (event : LockEvent)
    (inTime : state.NotOvertakenWhileEnforced event) : (state.step event).Ordered where
  located := ordered.located.step event
  indexed := ordered.indexed.step ordered.located event
  order := by
    intro on
    cases state.step_outcome ordered.located event with
    | kept best known index enforced =>
      rw [best, known]
      exact ordered.order (enforced on)
    | reset _ best known index =>
      apply Int.le_of_eq
      rw [best, known]
    | noted lock offers best known index enforced =>
      rw [enforced] at on
      rw [best, known]
      exact Int.le_trans (ordered.order on) (offers.le (inTime on))
    | matched lock offers best known index _ _ enforced =>
      apply Int.le_of_eq
      rw [best, known]

theorem Ordered.forward (ordered : state.Ordered) (event : LockEvent)
    (inTime : state.NotOvertakenWhileEnforced event) : state.ForwardWhileEnforced event := by
  intro on still
  have index := ordered.indexed.step ordered.located event
  have order := ordered.order on
  refine ⟨?_, ?_, fun block pointed => ⟨(index block pointed).1, (index block pointed).2.2⟩⟩
  · cases state.step_outcome ordered.located event with
    | kept best known index enforced =>
      apply Int.le_of_eq
      rw [best]
    | reset off best known index => exact absurd (off.symm.trans on) (by simp)
    | noted _ offers best | matched _ offers best =>
      rw [best]
      exact offers.le (inTime on)
  · cases state.step_outcome ordered.located event with
    | kept best known index enforced =>
      apply Int.le_of_eq
      rw [known]
    | reset off best known index => exact absurd (off.symm.trans on) (by simp)
    | noted lock offers best known index enforced =>
      apply Int.le_of_eq
      rw [known]
    | matched lock offers best known index present height enforced =>
      rw [known]
      exact Int.le_trans order (offers.le (inTime on))

/-- A step that goes forward was not overtaken. -/
theorem ForwardWhileEnforced.notOvertaken {event : LockEvent}
    (forward : state.ForwardWhileEnforced event) : state.NotOvertakenWhileEnforced event := by
  intro on
  cases event with
  | update call =>
    simp only [NotOvertaken]
    split
    · next clsig hash pindex found =>
      have after : (state.step (.update call)).handler =
        state.handler.update state.map clsig hash pindex := by
        simp only [LockState.step]
        rw [found]
        rfl
      have recorded : (state.handler.update state.map clsig hash pindex).bestChainLock = clsig /\
        (state.handler.update state.map clsig hash pindex).isEnforced =
          state.handler.isEnforced := by
        unfold CChainLocksHandler.update
        cases pindex with
        | none => exact ⟨rfl, rfl⟩
        | some _ => dsimp only; split <;> exact ⟨rfl, rfl⟩
      have advanced := (forward on (by rw [after, recorded.2]; exact on)).best
      rwa [after, recorded.1] at advanced
    · trivial
  | _ => trivial

def fresh (map : BlockMap) : LockState where
  map := map

theorem ordered_fresh (map : BlockMap) : (fresh map).Ordered where
  located := by
    intro call clsig hash block found
    cases found
  indexed := by
    intro block pointed
    cases pointed
  order := fun _ => Int.le_refl _

/-- The recorded chainlocks go forward while enforcement is on exactly when no call is overtaken:
each finds, when it updates, no higher one recorded. -/
theorem bestChainLock_forward_iff (map : BlockMap) (events : List LockEvent) :
    EveryStep step ForwardWhileEnforced (fresh map) events <->
      EveryStep step NotOvertakenWhileEnforced (fresh map) events := by
  constructor
  · exact EveryStep.mono fun state event forward => forward.notOvertaken
  · intro inTime
    exact EveryStep.of_invariant (fun state event ordered => ordered.step event)
      (fun state event ordered => ordered.forward event) (ordered_fresh map) inTime

/-- Two calls pass the first check with heights five and six; the one with height six updates
first, and the other one then replaces it. -/
theorem lower_chainLock_replaces_higher :
      Not (EveryStep step ForwardWhileEnforced (fresh fun _ => none) [.checkActiveState true true,
        .check 0 { nHeight := 5, blockHash := 50 } 500 0, .check 1 { nHeight := 6, blockHash := 60 } 600 0,
        .verify 0 true, .verify 1 true, .lookup 0, .lookup 1, .update 1, .update 0]) := by
  intro every
  have backwards := (every.2.2.2.2.2.2.2.2.1 rfl rfl).best
  cases backwards

end LockState
end StakeCubeCoin.Llmq
