import StakeCubeCoin.Library.Trace
import StakeCubeCoin.Llmq.SigShares

namespace StakeCubeCoin.Llmq
namespace SigSharesState

open Primitives Bls Library List CBLSBatchVerifier Function

/-!
# Stored shares are verified

A share is stored after it was created or after a batch was verified.  The batch holds one
message for each sign hash and member, and none for a share whose signature does not decode,
while the shares of a node are stored without asking which message was verified.  So a
stored share is known to verify as long as what is pending decodes and no two nodes send
different shares for one member.
-/

section

variable {env : SigSharesEnv} {share : CSigShare} {node : NodeId}

theorem mem_emplaceShare {ret : List (NodeId × List CSigShare)} {entry : NodeId × List CSigShare}
    {other : CSigShare} (member : entry ∈ emplaceShare node share ret) (present : other ∈ entry.2) :
    (entry.1 = node /\ other = share) \/ ∃ old ∈ ret, old.1 = entry.1 /\ other ∈ old.2 := by
  induction ret with
  | nil =>
    rw [mem_singleton.mp member] at present ⊢
    exact .inl ⟨rfl, mem_singleton.mp present⟩
  | cons first _ ih =>
    rw [emplaceShare] at member
    split at member
    · next same =>
      rcases mem_cons.mp member with here | later
      · rw [here] at present ⊢
        rcases mem_append.mp present with before | now
        · exact .inr ⟨first, (.head _), same, before⟩
        · exact .inl ⟨rfl, mem_singleton.mp now⟩
      · exact .inr ⟨entry, .tail _ later, rfl, present⟩
    · rcases mem_cons.mp member with here | later
      · rw [here] at present ⊢
        exact .inr ⟨first, (.head _), rfl, present⟩
      · rcases ih later with now | ⟨old, listed, same, before⟩
        · exact .inl now
        · exact .inr ⟨old, .tail _ listed, same, before⟩

/-- What is collected was pending, and nothing but what is pending has changed. -/
structure Collects (state : SigSharesState) (ret : List (NodeId × List CSigShare))
    (result : List (NodeId × List CSigShare) × SigSharesState) : Prop where
  pending : ∀ entry ∈ result.1, ∀ share ∈ entry.2,
    share ∈ state.pendingIncomingSigShares entry.1 \/ ∃ old ∈ ret, old.1 = entry.1 /\ share ∈ old.2
  sigShares : result.2.sigShares = state.sigShares
  created : result.2.created = state.created
  interpolated : result.2.interpolated = state.interpolated

theorem Collects.refl (state : SigSharesState) (ret : List (NodeId × List CSigShare)) :
    Collects state ret (ret, state) :=
  ⟨fun entry member _ present => .inr ⟨entry, member, rfl, present⟩, rfl, rfl, rfl⟩

variable {state : SigSharesState}

/-- Something is taken from a node before the others are collected. -/
theorem Collects.take {left : List CSigShare}
    {ret next : List (NodeId × List CSigShare)}
    {result : List (NodeId × List CSigShare) × SigSharesState}
    (shorter : ∀ share ∈ left, share ∈ state.pendingIncomingSigShares node)
    (now : Collects state ret (next, state))
    (later : Collects { state with
      pendingIncomingSigShares := Function.update state.pendingIncomingSigShares node left } next result) :
    Collects state ret result := by
  refine ⟨?_, later.sigShares, later.created, later.interpolated⟩
  intro entry member share present
  rcases later.pending entry member share present with pending | ⟨old, listed, same, before⟩
  · refine .inl ?_
    by_cases here : entry.1 = node
    · rw [here] at pending ⊢
      dsimp only at pending
      rw [update_self] at pending
      exact shorter share pending
    · dsimp only at pending
      rwa [update_of_ne here] at pending
  · rw [<- same]
    exact now.pending old listed share before

theorem Collects.emplace
    (taken : share ∈ state.pendingIncomingSigShares node) (ret : List (NodeId × List CSigShare)) :
    Collects state ret (emplaceShare node share ret, state) := by
  refine ⟨?_, rfl, rfl, rfl⟩
  intro entry member other present
  rcases mem_emplaceShare member present with ⟨here, now⟩ | before
  · rw [here, now]
    exact .inl taken
  · exact .inr before

theorem collects_collectLoop (order : MapOrder) (maxUniqueSessions : Nat) :
    ∀ (rounds : Nat) (nodes : List NodeId) (uniqueSignHashes : List (NodeId × Uint256))
      (ret : List (NodeId × List CSigShare)) (state : SigSharesState),
      Collects state ret (collectLoop env order maxUniqueSessions rounds nodes uniqueSignHashes ret state) := by
  intro rounds
  induction rounds with
  | zero =>
    intro nodes uniqueSignHashes ret state
    exact Collects.refl state ret
  | succ rounds ih =>
    intro nodes uniqueSignHashes ret state
    cases nodes with
    | nil => exact Collects.refl state ret
    | cons _ others =>
      rw [collectLoop]
      split
      · exact Collects.refl state ret
      split
      · exact ih others uniqueSignHashes ret state
      next _ found =>
      refine Collects.take (fun _ member => (mem_filter.mp member).1) ?_ (ih _ _ _ _)
      split
      · exact Collects.refl state ret
      · exact Collects.emplace (order.first_mem _ _ found) ret

theorem collects_collectPending (order : MapOrder) (maxUniqueSessions : Nat)
    (state : SigSharesState) :
    Collects state [] (state.collectPendingSigSharesToVerify env order maxUniqueSessions) := by
  have loop := @collects_collectLoop env order maxUniqueSessions
    (order.nodes.length + (order.nodes.map fun node => (state.pendingIncomingSigShares node).length).sum)
    order.nodes [] [] state
  refine ⟨?_, loop.sigShares, loop.created, loop.interpolated⟩
  intro entry member
  apply loop.pending entry
  unfold collectPendingSigSharesToVerify at member
  dsimp only at member
  split at member
  · next arranged => exact (isPerm_iff.mp arranged).mem_iff.mp member
  · exact member

end

section

variable {env : SigSharesEnv} {view : RecoveredView} {known : CSigShare -> Prop}

/-- The signatures decode, and there is one share for each sign hash and member.  Without it the
batch verifier does not verify every share that it is given. -/
structure Clean (env : SigSharesEnv) (known : CSigShare -> Prop) : Prop where
  decodes : ∀ share, known share -> env.curve.scheme.isValidSignature share.sigShare = true
  agree : ∀ first second, known first -> known second -> env.key first = env.key second ->
    first = second

/-- A share is the one that is verified with a batch. -/
def InBatch (env : SigSharesEnv) (verifier : CBLSBatchVerifier NodeId SigShareKey) (node : NodeId)
    (share : CSigShare) : Prop :=
  ∃ quorum, env.getQuorum share.llmqType share.quorumHash = some quorum /\
    (node, env.messageOf quorum share) ∈ verifier.messagesBySource

/-- The messages of a batch are those of known shares, and are verified all at once. -/
structure Batched (env : SigSharesEnv) (known : CSigShare -> Prop)
    (verifier : CBLSBatchVerifier NodeId SigShareKey) : Prop where
  whole : verifier.subBatchSize = 0
  stored : ∀ msg ∈ verifier.messages, ∃ share, known share /\
    ∃ quorum, env.getQuorum share.llmqType share.quorumHash = some quorum /\
      msg = env.messageOf quorum share

variable {verifier : CBLSBatchVerifier NodeId SigShareKey} {share : CSigShare}

section

variable (batched : Batched env known verifier) (node : NodeId) (isKnown : known share)
  {quorum : CQuorum} (found : env.getQuorum share.llmqType share.quorumHash = some quorum)

include batched node isKnown found

theorem Batched.emplace :
    Batched env known (verifier.emplace node (env.messageOf quorum share)) := by
  refine ⟨subBatchSize_emplace.trans batched.whole, ?_⟩
  intro msg member
  rcases mem_messages_emplace member with before | now
  · exact batched.stored msg before
  · exact ⟨share, isKnown, quorum, found, now⟩

/-- If known shares agree, the message that is stored for a share is its own. -/
theorem inBatch_emplace (clean : Clean env known) :
    InBatch env (verifier.emplace node (env.messageOf quorum share)) node share := by
  rcases exists_pushed_emplace verifier node (env.messageOf quorum share) with
    ⟨stored, sameId, pushed⟩
  have listed := (verifier.emplace node (env.messageOf quorum share)).listed _ pushed
  rcases (batched.emplace node isKnown found).stored stored listed with
    ⟨other, otherKnown, otherQuorum, otherFound, isMessage⟩
  rw [isMessage] at sameId pushed
  have same := clean.agree other share otherKnown isKnown sameId
  subst same
  exact ⟨otherQuorum, otherFound, pushed⟩

end

/-- What one of the loops that push has done. -/
structure Pushes (env : SigSharesEnv) (known : CSigShare -> Prop)
    (before after : CBLSBatchVerifier NodeId SigShareKey) : Prop where
  batched : Batched env known after
  kept : ∀ pushed ∈ before.messagesBySource, pushed ∈ after.messagesBySource

theorem InBatch.mono {before after : CBLSBatchVerifier NodeId SigShareKey} {node : NodeId}
    (kept : ∀ pushed ∈ before.messagesBySource, pushed ∈ after.messagesBySource)
    (inside : InBatch env before node share) : InBatch env after node share := by
  rcases inside with ⟨quorum, found, pushed⟩
  exact ⟨quorum, found, kept _ pushed⟩

variable {verifier after : CBLSBatchVerifier NodeId SigShareKey}

theorem pushes_pushShares (clean : Clean env known) (node : NodeId) {shares : List CSigShare}
    {ban : Bool} :
    (∀ share ∈ shares, known share) -> Batched env known verifier ->
      pushShares env view node shares verifier = some (after, ban) -> Pushes env known verifier after /\
        ∀ share ∈ shares, view.whenCollected share = true \/ InBatch env after node share := by
  induction shares generalizing verifier after ban with
  | nil =>
    intro _ batched result
    cases result
    exact ⟨⟨batched, fun _ => id⟩, fun _ member => absurd member not_mem_nil⟩
  | cons share _ ih =>
    intro allKnown batched result
    have isKnown := allKnown share (.head _)
    have restKnown := (forall_mem_cons.mp allKnown).2
    rw [pushShares] at result
    split at result
    · next recovered =>
      rcases ih restKnown batched result with ⟨pushes, settled⟩
      refine ⟨pushes, ?_⟩
      intro other member
      rcases mem_cons.mp member with here | later
      · rw [here]
        exact .inl recovered
      · exact settled other later
    · rw [clean.decodes share isKnown, if_neg (by simp)] at result
      split at result
      · cases result
      next _ found =>
      split at result
      · cases result
      next _ accepted =>
      -- Without a size for batches nothing is verified while messages are pushed.
      have emplaced := eq_verifySubBatch_of_pushMessage accepted
      rw [verifySubBatch, if_neg fun both => both.1 (subBatchSize_emplace.trans batched.whole)] at emplaced
      subst emplaced
      rcases ih restKnown (batched.emplace node isKnown found) result with
        ⟨pushes, settled⟩
      refine ⟨⟨pushes.batched, fun _ before =>
        pushes.kept _ (pushed_emplace_of_pushed before)⟩, ?_⟩
      intro other member
      rcases mem_cons.mp member with here | later
      · rw [here]
        exact .inr ((inBatch_emplace batched node isKnown found clean).mono pushes.kept)
      · exact settled other later

theorem pushes_pushAll (clean : Clean env known) {byNodes : List (NodeId × List CSigShare)}
    {state result : SigSharesState} :
    (∀ entry ∈ byNodes, ∀ share ∈ entry.2, known share) ->
      Batched env known verifier -> pushAll env view byNodes verifier state = some (after, result) ->
      Pushes env known verifier after /\ ∀ entry ∈ byNodes, ∀ share ∈ entry.2,
          view.whenCollected share = true \/ InBatch env after entry.1 share := by
  induction byNodes generalizing verifier after state result with
  | nil =>
    intro _ batched pushed
    cases pushed
    exact ⟨⟨batched, fun _ => id⟩, nofun⟩
  | cons entry _ ih =>
    intro allKnown batched pushed
    rw [pushAll] at pushed
    split at pushed
    · cases pushed
    next _ _ first =>
    rcases pushes_pushShares clean entry.1 (allKnown entry (.head _)) batched first with
      ⟨pushesFirst, settledFirst⟩
    rcases ih (forall_mem_cons.mp allKnown).2 pushesFirst.batched pushed with ⟨pushesRest, settledRest⟩
    refine ⟨⟨pushesRest.batched, fun _ before => pushesRest.kept _ (pushesFirst.kept _ before)⟩, ?_⟩
    intro other member share present
    rcases mem_cons.mp member with here | later
    · subst here
      rcases settledFirst share present with recovered | inside
      · exact .inl recovered
      · exact .inr (inside.mono pushesRest.kept)
    · exact settledRest other later share present

end

section

variable {env : SigSharesEnv} {view : RecoveredView}

/-- A share was created here, or it verifies. -/
def Proven (env : SigSharesEnv) (state : SigSharesState) (share : CSigShare) : Prop :=
  share ∈ state.created \/ env.verifies share = true

/-- The shares that are stored, and those that signatures were recovered from, were created by this
node or verify under the key share of their member. -/
structure Sound (env : SigSharesEnv) (state : SigSharesState) : Prop where
  stored : ∀ share ∈ state.sigShares, Proven env state share
  used : ∀ shares ∈ state.interpolated, ∀ share ∈ shares, Proven env state share

/-- Only what is stored, created and recovered from matters. -/
theorem Sound.congr {before after : SigSharesState} (sound : Sound env before)
    (sigShares : after.sigShares = before.sigShares) (created : after.created = before.created)
    (interpolated : after.interpolated = before.interpolated) : Sound env after := by
  constructor
  · intro share member
    rw [Proven, created]
    exact sound.stored share (sigShares ▸ member)
  · intro shares listed share member
    rw [Proven, created]
    exact sound.used shares (interpolated ▸ listed) share member

variable {state : SigSharesState}

theorem Sound.banNode (sound : Sound env state) (node : NodeId) :
    Sound env (state.banNode node) := by
  unfold SigSharesState.banNode
  split
  · exact sound
  · exact sound.congr rfl rfl rfl

theorem Sound.removeSigSharesForSession (sound : Sound env state) (signHash : Uint256) :
    Sound env (state.removeSigSharesForSession env signHash) :=
  ⟨fun share member => sound.stored share (mem_filter.mp member).1, sound.used⟩

theorem Sound.tryRecoverSig (sound : Sound env state) (quorum : CQuorum)
    (share : CSigShare) : Sound env (state.tryRecoverSig env view quorum share) := by
  unfold SigSharesState.tryRecoverSig
  dsimp only
  split
  · exact sound
  split
  · exact sound
  -- What is handed to the recovery was stored.
  have tried : Sound env { state with interpolated := state.interpolated ++
      [(state.sigShares.filter fun other => env.signHash other ==
        env.buildSignHash quorum.type quorum.quorumHash share.id share.msgHash).take quorum.threshold] } := by
    refine ⟨sound.stored, ?_⟩
    intro shares listed other member
    rcases mem_append.mp listed with before | now
    · exact sound.used shares before other member
    · rw [mem_singleton.mp now] at member
      exact sound.stored other (mem_filter.mp (mem_of_mem_take member)).1
  split
  · exact tried
  · split
    · exact tried.congr rfl rfl rfl
    · refine Sound.removeSigSharesForSession ?_ _
      exact tried.congr rfl rfl rfl

theorem Sound.processSigShare (sound : Sound env state) (quorum : CQuorum)
    {share : CSigShare} (proven : view.whenProcessed share = true \/ Proven env state share) :
    Sound env (state.processSigShare env view quorum share) := by
  unfold SigSharesState.processSigShare
  split
  · exact sound
  next fresh =>
  split
  · exact sound
  have added : Sound env { state with sigShares := state.sigShares ++ [share] } := by
    refine ⟨?_, sound.used⟩
    intro other member
    rcases mem_append.mp member with before | now
    · exact sound.stored other before
    · rw [mem_singleton.mp now]
      exact proven.resolve_left fresh
  dsimp only
  split
  · exact added.tryRecoverSig quorum share
  · exact added

theorem Sound.processShares {shares : List CSigShare} :
    ∀ {state : SigSharesState}, Sound env state ->
    (∀ share ∈ shares, view.whenProcessed share = true \/ env.verifies share = true) ->
    Sound env (processShares env view shares state) := by
  induction shares with
  | nil =>
    intro state sound _
    exact sound
  | cons share _ ih =>
    intro state sound settled
    have later := (forall_mem_cons.mp settled).2
    rw [SigSharesState.processShares]
    split
    · exact ih sound later
    · refine ih (sound.processSigShare _ ?_) later
      exact (settled share (.head _)).imp id .inr

variable {byNodes : List (NodeId × List CSigShare)}

theorem Sound.processNodes {badSources : List NodeId} {state : SigSharesState} :
    Sound env state -> (∀ entry ∈ byNodes, entry.1 ∉ badSources -> ∀ share ∈ entry.2,
        view.whenProcessed share = true \/ env.verifies share = true) ->
      Sound env (processNodes env view badSources byNodes state) := by
  induction byNodes generalizing state with
  | nil =>
    intro sound _
    exact sound
  | cons entry _ ih =>
    intro sound settled
    have later := (forall_mem_cons.mp settled).2
    rw [SigSharesState.processNodes]
    split
    · exact ih (sound.banNode entry.1) later
    · next trusted =>
      exact ih (sound.processShares (settled entry (.head _) trusted)) later

theorem Sound.pushAll {verifier after : CBLSBatchVerifier NodeId SigShareKey}
    {state result : SigSharesState} :
    Sound env state ->
      SigSharesState.pushAll env view byNodes verifier state = some (after, result) -> Sound env result := by
  induction byNodes generalizing verifier after state result with
  | nil =>
    intro sound pushed
    cases pushed
    exact sound
  | cons entry _ ih =>
    intro sound pushed
    rw [SigSharesState.pushAll] at pushed
    split at pushed
    · cases pushed
    · refine ih ?_ pushed
      split
      · exact sound.banNode entry.1
      · exact sound

def IsPending (state : SigSharesState) (share : CSigShare) : Prop :=
  ∃ node, share ∈ state.pendingIncomingSigShares node

theorem Sound.processPendingSigShares (sound : Sound env state) {order : MapOrder}
    (clean : Clean env (IsPending state))
    (kept : ∀ share, view.whenCollected share = true -> view.whenProcessed share = true) :
    Sound env (state.processPendingSigShares env view order) := by
  have collects := @collects_collectPending env order 32 state
  have collected := sound.congr collects.sigShares collects.created collects.interpolated
  unfold SigSharesState.processPendingSigShares
  dsimp only
  split
  · exact collected
  split
  · exact collected
  next _ _ pushed =>
  have begins : Batched env (IsPending state)
      { secureVerification := false, perMessageFallback := true } :=
    ⟨rfl, fun _ member => absurd member not_mem_nil⟩
  have settled := (pushes_pushAll clean (by
    intro entry member share present
    refine ⟨entry.1, ((collects_collectPending _ _ state).pending entry member share present).resolve_right ?_⟩
    rintro ⟨_, listed, _⟩
    cases listed) begins pushed).2
  refine (collected.pushAll pushed).processNodes ?_
  intro entry member trusted share present
  rcases settled entry member share present with recovered | inside
  · exact .inl (kept share recovered)
  rcases inside with ⟨_, found, pushed⟩
  right
  unfold SigSharesEnv.verifies
  rw [found]
  exact (settles_verify env.curve _).trusted _ (mem_sources_of_pushed pushed) trusted _ pushed

end

/-- What happens to the shares: messages of other nodes, the rounds of the worker thread, and
sessions and nodes that are forgotten. -/
inductive Event where
  | batchedSigShares (view : RecoveredView) (node : NodeId) (session : SessionInfo)
      (sigShares : List (BitVec 16 × CBLSSignature))
  | sigShare (view : RecoveredView) (node : NodeId) (share : CSigShare)
  | processPending (view : RecoveredView) (order : MapOrder)
  | signPending (view : RecoveredView) (quorum : CQuorum) (id msgHash : Uint256)
  | removeBanned
  | removeSession (signHash : Uint256)
  | removeNode (node : NodeId)

def step (env : SigSharesEnv) (state : SigSharesState) : Event -> SigSharesState
  | .batchedSigShares view node session sigShares =>
    processMessageBatchedSigShares env view node session sigShares state
  | .sigShare view node share => processMessageSigShare env view node share state
  | .processPending view order => state.processPendingSigShares env view order
  | .signPending view quorum id msgHash => state.signPendingSigShare env view quorum id msgHash
  | .removeBanned => state.removeBannedNodeStates
  | .removeSession signHash => state.removeSigSharesForSession env signHash
  | .removeNode node =>
    { state with pendingIncomingSigShares := Function.update state.pendingIncomingSigShares node [] }

/-- Shares are verified when all that are pending decode and none disagree, and what was recovered
is not forgotten before they are stored. -/
def Proper (env : SigSharesEnv) (state : SigSharesState) : Event -> Prop
  | .processPending view _ =>
    Clean env (IsPending state) /\
      ∀ share, view.whenCollected share = true -> view.whenProcessed share = true
  | _ => True

section

variable {env : SigSharesEnv} {view : RecoveredView} {state : SigSharesState}

variable (sound : Sound env state)

include sound

theorem Sound.processMessageBatchedSigShares (node : NodeId)
    (session : SessionInfo) (sigShares : List (BitVec 16 × CBLSSignature)) :
    Sound env (processMessageBatchedSigShares env view node session sigShares state) := by
  unfold SigSharesState.processMessageBatchedSigShares
  split
  · exact sound
  split
  · exact sound
  · split
    · exact sound.banNode node
    · exact sound.congr rfl rfl rfl

theorem Sound.processMessageSigShare (node : NodeId)
    (share : CSigShare) : Sound env (processMessageSigShare env view node share state) := by
  unfold SigSharesState.processMessageSigShare
  split
  · exact sound
  split
  · exact sound
  split
  · exact sound.banNode node
  split
  · exact sound.banNode node
  split
  · exact sound
  · split
    · exact sound
    · exact sound.congr rfl rfl rfl

theorem Sound.create (share : CSigShare) :
    Sound env { state with created := state.created ++ [share] } :=
  ⟨fun other member => (sound.stored other member).imp_left (mem_append_left _),
    fun shares listed other member => (sound.used shares listed other member).imp_left (mem_append_left _)⟩

theorem Sound.signPendingSigShare (quorum : CQuorum)
    (id msgHash : Uint256) : Sound env (state.signPendingSigShare env view quorum id msgHash) := by
  unfold SigSharesState.signPendingSigShare
  split
  · exact sound
  next share _ =>
  split
  · refine (sound.create share).processSigShare quorum (.inr (.inl ?_))
    exact mem_append_right _ (mem_singleton_self share)
  · exact sound

theorem Sound.step {event : Event}
    (proper : Proper env state event) : Sound env (step env state event) := by
  cases event with
  | batchedSigShares view node session sigShares =>
    exact sound.processMessageBatchedSigShares node session sigShares
  | sigShare view node share => exact sound.processMessageSigShare node share
  | processPending view _ => exact sound.processPendingSigShares proper.1 proper.2
  | signPending view quorum id msgHash => exact sound.signPendingSigShare quorum id msgHash
  | removeBanned => exact sound.congr rfl rfl rfl
  | removeSession signHash => exact sound.removeSigSharesForSession signHash
  | removeNode node => exact sound.congr rfl rfl rfl

end

/-- If shares are only verified when all that are pending decode and none disagree, then every share
that is stored or used to recover was created here or verifies under the key share of its member. -/
theorem sigShares_verify_of_run (env : SigSharesEnv) (events : List Event)
    (every : EveryStep (step env) (Proper env) {} events) :
    Sound env (events.foldl (step env) {}) := by
  have begins : Sound env {} :=
    ⟨fun _ member => absurd member not_mem_nil, nofun⟩
  exact EveryStep.last (fun _ _ sound proper => sound.step proper) begins every

def sampleEnv : SigSharesEnv where
  curve := .sample
  buildSignHash := fun _ _ id msgHash => id + msgHash
  getQuorum := fun llmqType quorumHash => some (.sample llmqType quorumHash)
  isQuorumActive := fun _ _ => true
  proTxHash := 7
  memberIndex := fun _ => 0
  sign := fun _ _ => some 1
  recover := fun _ => none

def sampleView : RecoveredView where
  whenCollected := fun _ => false
  whenProcessed := fun _ => false
  whenRecovering := fun _ => false

/-- There is one node, and shares are passed through in the order in which they came. -/
def sampleOrder : MapOrder where
  nodes := [1]
  first := List.head?
  first_mem := fun _ _ found => List.mem_of_head? found
  first_isSome := by
    intro shares nonempty
    cases shares with
    | nil => exact absurd rfl nonempty
    | cons share rest => rfl
  byNodes := []

def sampleShare (sigShare : CBLSSignature) : CSigShare where
  llmqType := 1
  quorumHash := 5
  quorumMember := 1
  id := 2
  msgHash := 3
  sigShare := sigShare

/-- A node sends a share, which is then processed. -/
def sampleEvents (sigShare : CBLSSignature) : List Event :=
  [.sigShare sampleView 1 (sampleShare sigShare), .processPending sampleView sampleOrder]

theorem eq_sampleShare_of_isPending {share : CSigShare}
    (pending : IsPending (step sampleEnv {} (.sigShare sampleView 1 (sampleShare 1))) share) :
    share = sampleShare 1 := by
  rcases pending with ⟨node, member⟩
  by_cases here : node = 1
  · subst here
    exact mem_singleton.mp member
  · change share ∈ Function.update (fun _ => []) 1 [sampleShare 1] node at member
    rw [update_of_ne here] at member
    cases member

theorem sigShares_verify_after_one_share :
    Sound sampleEnv ((sampleEvents 1).foldl (step sampleEnv) {}) /\
      ((sampleEvents 1).foldl (step sampleEnv) {}).sigShares = [sampleShare 1] := by
  refine ⟨sigShares_verify_of_run sampleEnv (sampleEvents 1) ⟨trivial, ⟨⟨?_, ?_⟩, fun _ => id⟩,
    trivial⟩, by decide +kernel⟩
  · intro share pending
    rw [eq_sampleShare_of_isPending pending]
    decide +kernel
  · intro first second one two _
    rw [eq_sampleShare_of_isPending one, eq_sampleShare_of_isPending two]

/-- A signature that does not decode is not verified, and the share is stored all the same. -/
theorem undecodable_share_is_stored :
    ((sampleEvents 2).foldl (step sampleEnv) {}).sigShares = [sampleShare 2] /\
      ((sampleEvents 2).foldl (step sampleEnv) {}).created = [] /\
      sampleEnv.verifies (sampleShare 2) = false := by
  decide +kernel

end SigSharesState
end StakeCubeCoin.Llmq
