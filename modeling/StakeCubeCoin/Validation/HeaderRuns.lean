import StakeCubeCoin.Library.Trace
import StakeCubeCoin.Validation.AcceptHeader

namespace StakeCubeCoin.Validation

open Primitives Chain Library Library.Forest BlockMap Function ChainState CBlockIndex
open Agree hiding some

/-!
# Runs of accepting headers

Headers are handed to `AcceptBlockHeader` one after another.  The tree stays linked whatever
the headers are.  A failed block stays failed, and no header that descends from it is
accepted, only as long as no header of a failed block is sent again and the failed blocks
above a new header can be found.
-/

/-! ## The tree stays linked -/

section

variable {map : BlockMap}

theorem linked_of_agree {view : CBlockIndex -> CBlockIndex} {first second : BlockMap}
    (skeletal : Skeletal view) (agree : Agree view first second) (linked : first.Linked) :
    second.Linked := by
  have same : ∀ {hash entry}, second hash = some entry -> ∃ other, first hash = some other /\
      other.pprev = entry.pprev /\ other.nHeight = entry.nHeight := by
    intro hash entry found
    rcases agree.symm.some found with ⟨other, there, looks⟩
    refine ⟨other, there, ?_, ?_⟩
    · rw [<- skeletal.pprev other, looks, skeletal.pprev]
    · rw [<- skeletal.nHeight other, looks, skeletal.nHeight]
  constructor
  · intro hash entry prev found previous
    rcases same found with ⟨other, there, samePrev, sameHeight⟩
    rcases linked.linked hash other prev there (samePrev.trans previous) with ⟨above, foundAbove, heights⟩
    rcases agree.some foundAbove with ⟨aboveNow, thereNow, looks⟩
    refine ⟨aboveNow, thereNow, ?_⟩
    rw [<- sameHeight, heights, <- skeletal.nHeight above, <- looks, skeletal.nHeight]
  · intro hash entry found alone
    rcases same found with ⟨other, there, samePrev, sameHeight⟩
    rw [<- sameHeight]
    exact linked.rooted hash other there (samePrev.trans alone)

theorem linked_update (linked : map.Linked) {hash prev : Uint256} {entry above : CBlockIndex}
    (fresh : map hash = none) (found : map prev = some above) (previous : entry.pprev = some prev)
    (heights : entry.nHeight = above.nHeight + 1) : Linked (update map hash (some entry)) := by
  have keeps : ∀ {other known}, map other = some known ->
      update map hash (some entry) other = some known := by
    intro other known there
    rw [update_of_ne, there]
    intro same
    rw [same, fresh] at there
    cases there
  constructor
  · intro other known before there goesTo
    by_cases same : other = hash
    · subst same
      rw [update_self] at there
      cases there
      rw [previous] at goesTo
      cases goesTo
      exact ⟨above, keeps found, heights⟩
    · rw [update_of_ne same] at there
      rcases linked.linked other known before there goesTo with ⟨parent, foundParent, counted⟩
      exact ⟨parent, keeps foundParent, counted⟩
  · intro other known there alone
    by_cases same : other = hash
    · subst same
      rw [update_self] at there
      cases there
      rw [previous] at alone
      cases alone
    · rw [update_of_ne same] at there
      exact linked.rooted other known there alone

end

section

variable {allocation : Allocation}

theorem agree_resetBlockFailureFlags (pindex : Option Uint256) (state : ChainState) :
    Agree unfailed state.m_block_index
      (state.resetBlockFailureFlags allocation pindex).m_block_index := by
  have ancestors : ∀ (walk : List Uint256) (start : ChainState),
      Agree unfailed start.m_block_index
        (walk.foldl (resetAncestor allocation) start).m_block_index := by
    intro walk
    induction walk with
    | nil =>
      intro start
      exact refl _
    | cons pindex _ ih =>
      intro start
      refine trans ?_ (ih _)
      unfold resetAncestor
      split
      · dsimp only
        refine trans ?_ (agree_mapStatus ?_)
        · exact agree_modify fun _ => rfl
        · intro hash entry
          split <;> rfl
      · exact refl _
  have whole : ∀ pindex, Agree unfailed state.m_block_index
      (state.resetFailureFlagsOf allocation pindex).m_block_index := by
    intro pindex
    refine Agree.trans ?_ (ancestors _ _)
    unfold resetDescendants
    dsimp only
    refine agree_mapStatus ?_
    intro hash entry
    split <;> rfl
  unfold resetBlockFailureFlags
  split
  · exact whole _
  split
  · exact refl _
  · split
    · exact whole _
    · exact refl _

end

structure HeaderEvent where
  around : Surroundings
  block : CBlockHeader

def headerStep (params : TreeParams) (state : ChainState) (event : HeaderEvent) : ChainState :=
  (acceptBlockHeader params event.around event.block state).2

structure Rooted (params : TreeParams) (state : ChainState) : Prop where
  linked : state.m_block_index.Linked
  genesis : (state.m_block_index params.env.hashGenesisBlock).isSome = true

section

variable {params : TreeParams} {around : Surroundings} {block : CBlockHeader} {state : ChainState}

/-- A call leaves the index but for failure flags, or it adds an entry below a known one.  The new
entry is valid, or conflicts with a chainlock. -/
theorem acceptBlockHeader_index (rooted : Rooted params state) :
    Agree unfailed state.m_block_index (acceptBlockHeader params around block state).2.m_block_index \/
      ∃ nStatus, ∃ prev, state.m_block_index (block.getHash params.env.prim) = none /\
        checkBlockHeader (params.envAt around state.m_block_index).toCheckEnv block true = none /\
        state.m_block_index block.hashPrevBlock = some prev /\
        (nStatus = { validity := BLOCK_VALID_TREE } \/ nStatus = { conflictChainlock := true }) /\
        (acceptBlockHeader params around block state).2.m_block_index =
          update state.m_block_index (block.getHash params.env.prim)
            (some (newEntry params.env.prim block nStatus (some prev))) := by
  have outcome := acceptBlockHeader_outcome params around block state
  generalize (acceptBlockHeader params around block state).1 = result at outcome
  generalize (acceptBlockHeader params around block state).2 = after at outcome ⊢
  cases outcome with
  | genesis isGenesis =>
    left
    rw [addToBlockIndex_of_known (isGenesis ▸ rooted.genesis)]
    exact refl _
  | reconsidered rejection entry known _ => exact .inl (agree_resetBlockFailureFlags _ state)
  | known entry known _ => exact .inl (refl _)
  | rejected rejection => exact .inl (refl _)
  | descends rejection _ _ =>
    unfold markFailedChild
    dsimp only
    refine .inl (agree_mapStatus ?_)
    intro hash entry
    split <;> rfl
  | added result nStatus prev _ unknown checked found _ _ status =>
    refine .inr ⟨nStatus, prev, unknown, checked, found, status.imp And.left And.left, ?_⟩
    rw [index_addToBlockIndex unknown, found]

theorem Rooted.step (rooted : Rooted params state) (event : HeaderEvent) :
    Rooted params (headerStep params state event) := by
  unfold headerStep
  rcases @acceptBlockHeader_index params event.around event.block state rooted with
    agree | ⟨_, _, unknown, _, found, _, updated⟩
  · refine ⟨linked_of_agree skeletal_unfailed agree rooted.linked, ?_⟩
    rw [agree.isSome_eq]
    exact rooted.genesis
  constructor
  · rw [updated]
    exact linked_update rooted.linked unknown found rfl rfl
  rw [updated]
  by_cases same : params.env.hashGenesisBlock = event.block.getHash params.env.prim
  · rw [same, update_self]
    rfl
  · rw [update_of_ne same]
    exact rooted.genesis

end

/-! ## Failed blocks stay failed -/

/-- An entry or one above it is failed. -/
def FailedAbove (map : BlockMap) (hash : Uint256) : Prop :=
  ∃ top, Above map.parent top hash /\ (map.entry top).nStatus.failed = true

/-- A header of a known block is sent only if nothing above it is failed.  For a new one the same
holds, or its parent is marked, or the failed block is looked for. -/
structure Traceable (params : TreeParams) (state : ChainState) (event : HeaderEvent) : Prop where
  known : (state.m_block_index (event.block.getHash params.env.prim)).isSome = true ->
    ¬ FailedAbove state.m_block_index (event.block.getHash params.env.prim)
  new : state.m_block_index (event.block.getHash params.env.prim) = none ->
    ¬ FailedAbove state.m_block_index event.block.hashPrevBlock \/
    (state.m_block_index.entry event.block.hashPrevBlock).nStatus.failed = true \/
    ((state.m_block_index.entry event.block.hashPrevBlock).isValid BLOCK_VALID_SCRIPTS = false /\
      ∃ failedit ∈ state.m_failed_blocks,
        state.m_block_index.getAncestor event.block.hashPrevBlock
          (state.m_block_index.height failedit) = some failedit)

/-- Entries get no other failure flag than the one for descendants, and lose none.  It is what the
walk over `m_failed_blocks` may do to the tree. -/
structure OnlyMarked (before after : ChainState) : Prop where
  flags : ∀ hash entry, before.m_block_index hash = some entry ->
    ∃ now, after.m_block_index hash = some now /\ now.nStatus.failedValid = entry.nStatus.failedValid /\
      (entry.nStatus.failedChild = true -> now.nStatus.failedChild = true)
  failedBlocks : after.m_failed_blocks = before.m_failed_blocks
  candidates : after.setBlockIndexCandidates = before.setBlockIndexCandidates

/-- Failed blocks stay failed, an accepted header has none above it, and a rejected one changes
nothing but marks of descendants. -/
structure Final (params : TreeParams) (state : ChainState) (event : HeaderEvent) : Prop where
  kept : ∀ hash, (state.m_block_index.entry hash).nStatus.failed = true ->
    ((headerStep params state event).m_block_index.entry hash).nStatus.failed = true
  accepted : (acceptBlockHeader params event.around event.block state).1 = none ->
    ¬ FailedAbove (headerStep params state event).m_block_index (event.block.getHash params.env.prim)
  rejected : (acceptBlockHeader params event.around event.block state).1.isSome = true ->
    OnlyMarked state (headerStep params state event)

section

variable {params : TreeParams} {state : ChainState} {event : HeaderEvent}

theorem OnlyMarked.refl (state : ChainState) : OnlyMarked state state :=
  ⟨fun _ entry found => ⟨entry, found, rfl, id⟩, rfl, rfl⟩

theorem onlyMarked_markFailedChild (state : ChainState) (pindexPrev failedit : Uint256) :
    OnlyMarked state { state with m_block_index := markFailedChild state.m_block_index pindexPrev failedit } := by
  refine ⟨?_, rfl, rfl⟩
  intro hash entry found
  refine ⟨_, congrArg (Option.map _) found, ?_, ?_⟩
  · dsimp only
    split <;> rfl
  intro child
  dsimp only
  split
  · rfl
  · exact child

theorem onlyMarked_addToBlockIndex {prim : HashPrimitives} {block : CBlockHeader}
    {nStatus : BlockStatus} (unknown : state.m_block_index (block.getHash prim) = none) :
    OnlyMarked state (state.addToBlockIndex prim block nStatus) := by
  refine ⟨?_, ?_, ?_⟩
  · intro hash entry found
    refine ⟨entry, ?_, rfl, id⟩
    rw [index_addToBlockIndex unknown, update_of_ne, found]
    intro same
    rw [same, unknown] at found
    cases found
  · unfold addToBlockIndex
    simp only [unknown]
  · unfold addToBlockIndex
    simp only [unknown]

theorem not_failedAbove_update {map : BlockMap} (linked : map.Linked) {hash prev : Uint256}
    {entry above : CBlockIndex} (fresh : map hash = none) (found : map prev = some above)
    (previous : entry.pprev = some prev) (unfailed : entry.nStatus.failed = false)
    (clear : ¬ FailedAbove map prev) : ¬ FailedAbove (update map hash (some entry)) hash := by
  have known : ∀ {top}, Above map.parent top prev -> top ≠ hash := by
    rintro top ⟨steps, reached⟩ same
    have isKnown := linked.known_of_ancestor (by rw [found]; rfl) reached
    rw [same, fresh] at isKnown
    cases isKnown
  have parents : ∀ {other}, other ≠ hash ->
      parent (update map hash (some entry)) other = map.parent other := by
    intro other different
    unfold parent
    rw [update_of_ne different]
  have up : parent (update map hash (some entry)) hash = some prev := by
    unfold parent
    rw [update_self]
    exact previous
  -- The way up from the parent is the same in both indexes.
  have back : ∀ {steps top node}, (∀ other, Above map.parent other node ->
    Above map.parent other prev) ->
      Library.Forest.ancestor (parent (update map hash (some entry))) steps node = some top ->
      Above map.parent top prev := by
    intro steps
    induction steps with
    | zero =>
      intro top node inside reached
      cases reached
      exact inside _ (above_refl _)
    | succ steps ih =>
      intro top node inside reached
      rcases Option.bind_eq_some_iff.mp reached with ⟨next, here, further⟩
      rw [parents (known (inside node (above_refl node)))] at here
      refine ih (fun other higher => ?_) further
      exact inside other (higher.trans (above_of_parent here))
  rintro ⟨top, isAbove, failed⟩
  rcases isAbove.eq_or_parent with same | ⟨next, here, steps, reached⟩
  · rw [same, BlockMap.entry, update_self] at failed
    change entry.nStatus.failed = true at failed
    rw [unfailed] at failed
    cases failed
  · rw [up] at here
    cases here
    have inside := back (fun _ => id) reached
    rw [BlockMap.entry, update_of_ne (known inside)] at failed
    exact clear ⟨top, inside, failed⟩

theorem final_of_traceable (rooted : Rooted params state)
    (traceable : Traceable params state event) :
    Final params state event := by
  have outcome := acceptBlockHeader_outcome params event.around event.block state
  have steps : headerStep params state event =
    (acceptBlockHeader params event.around event.block state).2 := rfl
  suffices facts : ((acceptBlockHeader params event.around event.block state).1 = none ->
      ¬ FailedAbove (headerStep params state event).m_block_index (event.block.getHash params.env.prim)) /\
      OnlyMarked state (headerStep params state event) by
    refine ⟨fun hash failed => ?_, facts.1, fun _ => facts.2⟩
    unfold BlockMap.entry at failed ⊢
    cases found : state.m_block_index hash with
    | none =>
      rw [found] at failed
      cases failed
    | some entry =>
      rcases facts.2.flags hash entry found with ⟨now, foundNow, sameValid, child⟩
      rw [found] at failed
      rw [foundNow]
      change (now.nStatus.failedValid || now.nStatus.failedChild) = true
      rw [sameValid]
      rcases Bool.or_eq_true_iff.mp failed with valid | descends
      · exact Bool.or_eq_true_iff.mpr (.inl valid)
      · exact Bool.or_eq_true_iff.mpr (.inr (child descends))
  rw [steps]
  generalize (acceptBlockHeader params event.around event.block state).1 = result at outcome ⊢
  generalize (acceptBlockHeader params event.around event.block state).2 = after at outcome ⊢
  cases outcome with
  | genesis isGenesis =>
    have known := isGenesis.symm ▸ rooted.genesis
    rw [addToBlockIndex_of_known known]
    exact ⟨fun _ => traceable.known known, OnlyMarked.refl state⟩
  | reconsidered rejection entry known failed =>
    refine absurd ⟨_, above_refl _, ?_⟩ (traceable.known (by rw [known]; rfl))
    rw [BlockMap.entry, known]
    exact failed
  | known entry known _ =>
    exact ⟨fun _ => traceable.known (by rw [known]; rfl), OnlyMarked.refl state⟩
  | rejected rejection => exact ⟨fun accepted => (by cases accepted), OnlyMarked.refl state⟩
  | descends rejection failedit listed =>
    exact ⟨fun accepted => (by cases accepted), onlyMarked_markFailedChild state _ failedit⟩
  | added result nStatus prev _ unknown _ found prevNotFailed unlisted status =>
    refine ⟨?_, onlyMarked_addToBlockIndex unknown⟩
    intro _
    have clear : ¬ FailedAbove state.m_block_index event.block.hashPrevBlock := by
      rcases traceable.new unknown with clear | marked | ⟨unvalidated, failedit, listed, descends⟩
      · exact clear
      · rw [BlockMap.entry, found] at marked
        change prev.nStatus.failed = true at marked
        rw [prevNotFailed] at marked
        cases marked
      · unfold failedAncestor at unlisted
        dsimp only at unlisted
        rw [unvalidated] at unlisted
        have missed := List.find?_eq_none.mp unlisted failedit ((List.mem_insertionSort _).mpr listed)
        exact absurd (decide_eq_true descends) missed
    rw [index_addToBlockIndex unknown, found]
    exact not_failedAbove_update rooted.linked unknown found rfl
      (by rcases status with ⟨rfl, _⟩ | ⟨rfl, _⟩ <;> rfl) clear

end

/-- If every header that is sent is traceable, failed blocks stay failed, no header that descends
from one is accepted, and rejected headers change nothing but marks of descendants. -/
theorem failures_final_of_run (params : TreeParams) (start : ChainState) (events : List HeaderEvent)
    (rooted : Rooted params start)
    (every : EveryStep (headerStep params) (Traceable params) start events) :
    EveryStep (headerStep params) (Final params) start events /\
      ∀ hash, (start.m_block_index.entry hash).nStatus.failed = true ->
        ((events.foldl (headerStep params) start).m_block_index.entry hash).nStatus.failed = true := by
  have finals : EveryStep (headerStep params) (Final params) start events :=
    @EveryStep.of_invariant _ _ _ (Rooted params) (Traceable params) (Final params)
      (fun _ event inside _ => inside.step event) start events
      (fun _ _ inside traceable => final_of_traceable inside traceable) rooted every
  refine ⟨finals, ?_⟩
  intro hash failed
  exact @EveryStep.last _ _ _ (fun state => (state.m_block_index.entry hash).nStatus.failed = true)
    (Final params) (fun _ _ before final => final.kept hash before) start events failed finals

namespace FailedSample

/-- Every target may be asked for, and a block is identified by its nonce. -/
def params : TreeParams where
  env := NodeEnv.permissive 0 false false
  context :=
    { fMain := false, getNextWorkRequired := fun _ _ block => block.nBits, farApart := fun _ _ => false
      fCheckpointsEnabled := false, checkpoints := [], BIP34Height := 1000, BIP65Height := 1000
      BIP66Height := 1000, csvActive := fun _ _ => false }
  powLimit := BitVec.allOnes 256
  allocation := ⟨BitVec.toNat, fun _ _ same => BitVec.eq_of_toNat_eq same⟩

def header (hashPrevBlock : Uint256) (nNonce : BitVec 32) : CBlockHeader where
  nVersion := 1
  hashPrevBlock := hashPrevBlock
  hashMerkleRoot := 0
  nTime := 2
  nBits := 0x207fffff
  nNonce := nNonce

def event (hashPrevBlock : Uint256) (nNonce : BitVec 32) : HeaderEvent where
  around := { nAdjustedTime := 0, hasConflictingChainLock := fun _ _ => false }
  block := header hashPrevBlock nNonce

def index : BlockMap := fun hash =>
  if hash = 0 then some { nTime := 1 }
  else if hash = 1 then some { pprev := some 0, nHeight := 1, nTime := 2, nStatus := { validity := 3, failedValid := true } }
  else none

def start : ChainState where
  m_block_index := index
  hashes := [0, 1]
  m_prev_block_index := [(0, 1)]
  m_failed_blocks := [1]
  setBlockIndexCandidates := [0]
  tip := 0
  nBlockSequenceId := 1

theorem index_eq_some {hash : Uint256} {entry : CBlockIndex} (found : index hash = some entry) :
    hash = 0 /\ entry = { nTime := 1 } \/
    hash = 1 /\ entry =
      { pprev := some 0, nHeight := 1, nTime := 2, nStatus := { validity := 3, failedValid := true } } := by
  unfold index at found
  split at found
  · next isGenesis => exact .inl ⟨isGenesis, (Option.some.inj found).symm⟩
  · split at found
    · next isNext => exact .inr ⟨isNext, (Option.some.inj found).symm⟩
    · cases found

theorem rooted : Rooted params start := by
  refine ⟨⟨?_, ?_⟩, rfl⟩
  · intro hash entry prev found previous
    rcases index_eq_some found with ⟨_, same⟩ | ⟨_, same⟩
    · subst same
      cases previous
    · subst same
      cases previous
      exact ⟨_, rfl, rfl⟩
  · intro hash entry found alone
    rcases index_eq_some found with ⟨_, same⟩ | ⟨_, same⟩
    · subst same
      rfl
    · subst same
      cases alone

theorem not_failedAbove_genesis : ¬ FailedAbove index 0 := by
  rintro ⟨_, isAbove, failed⟩
  rcases isAbove.eq_or_parent with same | ⟨_, here, _⟩
  · subst same
    cases failed
  · cases here

end FailedSample

open FailedSample

/-- A header after the genesis block is accepted, and one after the failed block is not. -/
theorem failures_final_after_two_headers :
    EveryStep (headerStep params) (Final params) start [event 0 3, event 1 2] /\
      (([event 0 3, event 1 2].foldl (headerStep params) start).m_block_index.entry 1).nStatus.failed = true := by
  have every : EveryStep (headerStep params) (Traceable params) start [event 0 3, event 1 2] := by
    refine ⟨⟨?_, ?_⟩, ⟨?_, ?_⟩, trivial⟩
    · intro known
      exact absurd known (by decide +kernel)
    · intro _
      exact .inl not_failedAbove_genesis
    · intro known
      exact absurd known (by decide +kernel)
    · intro _
      exact .inr (.inl (by decide +kernel))
  have final := failures_final_of_run params start _ rooted every
  exact ⟨final.1, final.2 1 rfl⟩

/-- When the header of the failed block is sent again it is rejected, and its flag is removed. -/
theorem duplicate_header_clears_failure : (start.m_block_index.entry 1).nStatus.failed = true /\
      (acceptBlockHeader params (event 0 1).around (event 0 1).block start).1.isSome = true /\
      ((headerStep params start (event 0 1)).m_block_index.entry 1).nStatus.failed = false /\
      (headerStep params start (event 0 1)).m_failed_blocks = [] := by
  decide +kernel

end StakeCubeCoin.Validation
