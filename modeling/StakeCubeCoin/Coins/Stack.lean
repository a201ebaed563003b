import StakeCubeCoin.Library.Run
import StakeCubeCoin.Coins.Layer

namespace StakeCubeCoin.Coins

open Primitives Library CCoinsViewCache List Function Coin IterationOrder

/-!
# Stacks of caches

The caches of a node form a stack: the tip cache over the coins database, and
short-lived caches over the tip.  A read that misses in one layer becomes a read
of the layer below and fills both.  `Flush` merges a layer into the one below it,
or writes it to the base view.

The reference is a plain map from outpoints to coins.  The result is that the
top layer answers like the reference map, that nothing is thrown, and that
flushing every layer leaves the reference map in the base view.
-/

/-- A base view: it answers `GetCoin`, and after `BatchWrite` its unspent coins
are those before, changed by the dirty entries it was given. -/
structure BaseView (State : Type) where
  getCoin : State -> CCoinsView
  batchWrite : State -> List CCoinsItem -> Uint256 -> State
  coins_batchWrite : ∀ state items hashBlock, (items.map Sigma.fst).Nodup ->
    liveCoins (getCoin (batchWrite state items hashBlock)) =
      writeBatch (liveCoins (getCoin state)) (dirtyOps items)

/-- A stack of caches, the top one first, over the state of a base view.  Each cache has the view
below it as its parent, as in a chain of `CCoinsViewCache` objects. -/
structure Stack (State : Type) where
  caches : List CCoinsViewCache
  base : State

namespace Stack

variable {State : Type}

def new (layers : Nat) (base : State) : Stack State :=
  { caches := List.replicate layers CCoinsViewCache.new, base }

/-! ## Reads through the layers -/

/-- `GetCoin` on the first of a list of caches.  A layer without an entry passes
the call on to the layer below, and all layers passed are filled. -/
def getCoin (base : CCoinsView) :
    List CCoinsViewCache -> COutPoint -> Option Coin × List CCoinsViewCache
  | [], outpoint => (base outpoint, [])
  | cache :: lower, outpoint =>
    let read := cache.getCoin (fun wanted => (getCoin base lower wanted).1) outpoint
    (read.1, read.2 :: (if (cache.find outpoint).isSome then lower else (getCoin base lower outpoint).2))

variable (base : CCoinsView)

/-- The answers of a list of caches to `GetCoin`. -/
def answers (caches : List CCoinsViewCache) : CCoinsView :=
  fun outpoint => (getCoin base caches outpoint).1

/-- The layers under a cache after that cache has fetched an outpoint. -/
def fetchLower (cache : CCoinsViewCache)
    (lower : List CCoinsViewCache) (outpoint : COutPoint) : List CCoinsViewCache :=
  if (cache.find outpoint).isSome then lower else (getCoin base lower outpoint).2

/-- A call on one layer, counted from the top. -/
inductive Call where
  | getCoin (layer : Nat) (outpoint : COutPoint)
  | haveCoin (layer : Nat) (outpoint : COutPoint)
  | accessCoin (layer : Nat) (outpoint : COutPoint)
  | addCoin (layer : Nat) (outpoint : COutPoint) (coin : Coin) (possible_overwrite : Bool)
  | spendCoin (layer : Nat) (outpoint : COutPoint)
  | uncache (layer : Nat) (outpoint : COutPoint)
  | flush (layer : Nat)

def Call.layer : Call -> Nat
  | .getCoin layer _ | .haveCoin layer _ | .accessCoin layer _ | .addCoin layer _ _ _
  | .spendCoin layer _ | .uncache layer _ | .flush layer => layer

variable (view : BaseView State) (order : IterationOrder)

/-- `CCoinsViewCache::Flush` of a cache over the layers below it. -/
def flush (cache : CCoinsViewCache)
    (lower : List CCoinsViewCache) (base : State) : Except CoinsError (Stack State) :=
  let cleared := { cache with cacheCoins := ∅ }
  let items := order.visit cache.cacheCoins
  match lower with
  | [] => .ok { caches := [cleared], base := view.batchWrite base items cache.hashBlock }
  | parent :: rest =>
    match parent.batchWrite items cache.hashBlock with
    | .error error => .error error
    | .ok written => .ok { caches := cleared :: written :: rest, base }

/-- The effect of a call on the layer it is made on and on those below. -/
def callHere (call : Call) (cache : CCoinsViewCache) (lower : List CCoinsViewCache) (base : State) :
    Except CoinsError (Stack State) :=
  let below := answers (view.getCoin base) lower
  let filled := fetchLower (view.getCoin base) cache lower
  match call with
  | .getCoin _ outpoint =>
    .ok { caches := (cache.getCoin below outpoint).2 :: filled outpoint, base }
  | .haveCoin _ outpoint =>
    .ok { caches := (cache.haveCoin below outpoint).2 :: filled outpoint, base }
  | .accessCoin _ outpoint =>
    .ok { caches := (cache.accessCoin below outpoint).2 :: filled outpoint, base }
  | .addCoin _ outpoint coin possible_overwrite =>
    match cache.addCoin outpoint coin possible_overwrite with
    | .error error => .error error
    | .ok added => .ok { caches := added :: lower, base }
  | .spendCoin _ outpoint =>
    .ok { caches := (cache.spendCoin below outpoint).2 :: filled outpoint, base }
  | .uncache _ outpoint =>
    .ok { caches := cache.uncache outpoint :: lower, base }
  | .flush _ => flush view order cache lower base

variable (stack : Stack State)

/-- One call.  The layers above the one it is made on do not take part. -/
def step (call : Call) : Except CoinsError (Stack State) :=
  match stack.caches.drop call.layer with
  | [] => .ok stack
  | cache :: lower =>
    match callHere view order call cache lower stack.base with
    | .error error => .error error
    | .ok after =>
      .ok { after with caches := stack.caches.take call.layer ++ after.caches }

def flushAll : Except CoinsError (Stack State) :=
  runSteps (step view order) stack ((List.range stack.caches.length).map Call.flush)

variable (store : Store COutPoint Coin)

/-- The same additions and removals, made directly on a map. -/
def reference : Call -> Store COutPoint Coin
  | .addCoin _ outpoint coin _ => addLive store outpoint coin
  | .spendCoin _ outpoint => update store outpoint none
  | _ => store

/-- No layer above the given one has an entry for the outpoint. -/
def UncachedAbove (layer : Nat) (outpoint : COutPoint) : Prop :=
  ∀ cache ∈ stack.caches.take layer, cache.find outpoint = none

/-- What a caller promises.  The layer exists.  `AddCoin` is given an unspent coin, and
`possible_overwrite` unless there is none to overwrite.  Coins are changed on a layer whose change
the layers above can see. -/
def Contract (call : Call) : Prop :=
  call.layer < stack.caches.length /\
  match call with
  | .addCoin layer outpoint coin possible_overwrite =>
    coin.isSpent = false /\ (possible_overwrite = true \/ store outpoint = none) /\
      UncachedAbove stack layer outpoint
  | .spendCoin layer outpoint => UncachedAbove stack layer outpoint
  | _ => True

/-! ## The meaning of a stack -/

/-- The unspent coins a list of caches stands for. -/
def coins (below : Store COutPoint Coin) : List CCoinsViewCache -> Store COutPoint Coin
  | [] => below
  | cache :: lower => cache.coins (coins below lower)

def Valid (below : Store COutPoint Coin) : List CCoinsViewCache -> Prop
  | [] => True
  | cache :: lower => cache.Valid (coins below lower) /\ Valid below lower

section

variable (below : Store COutPoint Coin)

theorem coins_replicate_new (layers : Nat) :
    coins below (List.replicate layers CCoinsViewCache.new) = below := by
  induction layers with
  | zero => rfl
  | succ layers ih =>
    rw [replicate_succ, coins, ih, coins_new]

theorem valid_replicate_new (layers : Nat) :
    Valid below (List.replicate layers CCoinsViewCache.new) := by
  induction layers with
  | zero => exact trivial
  | succ layers ih =>
    exact ⟨valid_new _, ih⟩

theorem coins_append_of_uncached {outpoint : COutPoint} (lower : List CCoinsViewCache) :
    ∀ above : List CCoinsViewCache, (∀ cache ∈ above, cache.find outpoint = none) ->
      coins below (above ++ lower) outpoint = coins below lower outpoint := by
  intro above
  induction above with
  | nil =>
    intro _
    rfl
  | cons cache _ ih =>
    intro uncached
    simp only [cons_append, coins]
    rw [coins_of_find_none _ (uncached cache (.head _))]
    exact ih (forall_mem_cons.mp uncached).2

theorem valid_of_append {lower : List CCoinsViewCache} :
    ∀ above : List CCoinsViewCache, Valid below (above ++ lower) -> Valid below lower := by
  intro above
  induction above with
  | nil =>
    intro valid
    exact valid
  | cons _ _ ih =>
    intro valid
    exact ih valid.2

end

section

variable (base : CCoinsView)

/-- The raw answers of a list of caches have the meaning of the list. -/
theorem liveCoins_answers (caches : List CCoinsViewCache) :
    liveCoins (answers base caches) = coins (liveCoins base) caches := by
  induction caches with
  | nil => rfl
  | cons cache lower ih =>
    funext outpoint
    have answered : answers base (cache :: lower) outpoint =
      cache.coins (coins (liveCoins base) lower) outpoint := by
      rw [<- ih]
      exact getCoin_fst _ cache outpoint
    simp only [liveCoins, answered, coins]
    cases found : cache.coins (coins (liveCoins base) lower) outpoint with
    | none => rfl
    | some _ =>
      rw [<- ih] at found
      exact live_of_unspent (coins_unspent (liveCoins_unspent _) cache found)

/-- The layers below keep their meaning when a read passes through them. -/
theorem getCoin_snd (caches : List CCoinsViewCache) : ∀ outpoint, Valid (liveCoins base) caches ->
      Valid (liveCoins base) (getCoin base caches outpoint).2 /\
        coins (liveCoins base) (getCoin base caches outpoint).2 = coins (liveCoins base) caches := by
  induction caches with
  | nil =>
    intro _ _
    exact ⟨trivial, rfl⟩
  | cons cache lower ih =>
    intro outpoint valid
    have fetched : cache.Valid (liveCoins (answers base lower)) := by
      rw [liveCoins_answers]
      exact valid.1
    have lowerKept : Valid (liveCoins base) (fetchLower base cache lower outpoint) /\
      coins (liveCoins base) (fetchLower base cache lower outpoint) = coins (liveCoins base) lower := by
      unfold fetchLower
      split
      · exact ⟨valid.2, rfl⟩
      · exact ih outpoint valid.2
    change Valid _ ((cache.getCoin (answers base lower) outpoint).2 ::
      fetchLower base cache lower outpoint) /\ coins _ ((cache.getCoin (answers base lower)
        outpoint).2 :: fetchLower base cache lower outpoint) = _
    rw [CCoinsViewCache.getCoin_snd]
    refine ⟨⟨?_, lowerKept.1⟩, ?_⟩
    · rw [lowerKept.2, <- liveCoins_answers]
      exact fetched.fetchCoin _ outpoint
    · rw [coins, coins, lowerKept.2, <- liveCoins_answers, coins_fetchCoin]

/-- A fetch in one layer keeps the meaning of that layer and of those below. -/
theorem fetchLower_spec (cache : CCoinsViewCache) {lower : List CCoinsViewCache}
    (valid : Valid (liveCoins base) lower) (outpoint : COutPoint) :
    Valid (liveCoins base) (fetchLower base cache lower outpoint) /\
      coins (liveCoins base) (fetchLower base cache lower outpoint) = coins (liveCoins base) lower := by
  unfold fetchLower
  split
  · exact ⟨valid, rfl⟩
  · exact getCoin_snd base lower outpoint valid

end

section

variable (view : BaseView State) (order : IterationOrder)

def baseCoins (stack : Stack State) : Store COutPoint Coin :=
  liveCoins (view.getCoin stack.base)

/-- A stack and a reference map agree: all flags are correct, and the stack
stands for the map. -/
structure Agrees (stack : Stack State) (store : Store COutPoint Coin) : Prop where
  valid : Valid (stack.baseCoins view) stack.caches
  same : coins (stack.baseCoins view) stack.caches = store

/-- What a call does to its layer and to those below.  Reads, `Uncache` and `Flush` keep the
meaning; the other two calls change one outpoint. -/
structure HereSpec (below before : Store COutPoint Coin) (call : Call) (after : Stack State) :
    Prop where
  valid : Valid (after.baseCoins view) after.caches
  same : coins (after.baseCoins view) after.caches = reference before call
  base_of_ne_flush : call ≠ .flush call.layer -> after.baseCoins view = below

variable {cache : CCoinsViewCache} {lower : List CCoinsViewCache} {base : State}

theorem flush_spec (valid : Valid (liveCoins (view.getCoin base)) (cache :: lower)) :
    ∃ after, flush view order cache lower base = .ok after /\
      Valid (after.baseCoins view) after.caches /\ coins (after.baseCoins view) after.caches =
        coins (liveCoins (view.getCoin base)) (cache :: lower) := by
  cases lower with
  | nil =>
    refine ⟨_, rfl, ⟨valid_new _, trivial⟩, ?_⟩
    change CCoinsViewCache.new.coins (liveCoins (view.getCoin (view.batchWrite base
      (order.visit cache.cacheCoins) cache.hashBlock))) = _
    rw [view.coins_batchWrite _ _ _ (order.nodup_keys_visit cache)]
    exact writeBatch_dirtyOps valid.1 order
  | cons _ rest =>
    rcases valid with ⟨cacheValid, parentValid, restValid⟩
    rcases batchWrite_spec parentValid cacheValid order cache.hashBlock with
      ⟨written, merged, writtenValid, writtenCoins, _⟩
    refine ⟨{ caches := { cache with cacheCoins := ∅ } :: written :: rest, base }, ?_,
      ⟨valid_new _, writtenValid, restValid⟩, ?_⟩
    · simp only [flush, merged]
    · change CCoinsViewCache.new.coins (written.coins _) = _
      exact writtenCoins

/-- Reads are alike: they fetch, and answer from the fetched entry. -/
theorem fetched_spec {fetched : CCoinsViewCache}
    {outpoint : COutPoint} (valid : Valid (liveCoins (view.getCoin base)) (cache :: lower))
    (fetches : fetched = cache.fetchCoin (answers (view.getCoin base) lower) outpoint) :
    Valid (liveCoins (view.getCoin base))
      (fetched :: fetchLower (view.getCoin base) cache lower outpoint) /\
      coins (liveCoins (view.getCoin base))
        (fetched :: fetchLower (view.getCoin base) cache lower outpoint) =
        coins (liveCoins (view.getCoin base)) (cache :: lower) := by
  rcases fetchLower_spec (view.getCoin base) cache valid.2 outpoint with
    ⟨lowerValid, lowerSame⟩
  have cacheValid := valid.1
  rw [<- liveCoins_answers] at cacheValid
  subst fetches
  refine ⟨⟨?_, lowerValid⟩, ?_⟩
  · rw [lowerSame, <- liveCoins_answers]
    exact cacheValid.fetchCoin _ outpoint
  · rw [coins, coins, lowerSame, <- liveCoins_answers, coins_fetchCoin]

theorem callHere_spec (call : Call) (valid : Valid (liveCoins (view.getCoin base)) (cache :: lower))
    (allowed : ∀ layer outpoint coin possible_overwrite,
      call = .addCoin layer outpoint coin possible_overwrite -> coin.isSpent = false /\
        (possible_overwrite = true \/
          coins (liveCoins (view.getCoin base)) (cache :: lower) outpoint = none)) :
    ∃ after, callHere view order call cache lower base = .ok after /\
      HereSpec view (liveCoins (view.getCoin base))
        (coins (liveCoins (view.getCoin base)) (cache :: lower)) call after := by
  cases call with
  | getCoin layer outpoint =>
    have kept := fetched_spec view valid (CCoinsViewCache.getCoin_snd _ cache outpoint)
    exact ⟨_, rfl, kept.1, kept.2, fun _ => rfl⟩
  | haveCoin layer outpoint =>
    have kept := fetched_spec view valid (haveCoin_snd _ cache outpoint)
    exact ⟨_, rfl, kept.1, kept.2, fun _ => rfl⟩
  | accessCoin layer outpoint =>
    have kept := fetched_spec view valid (accessCoin_snd _ cache outpoint)
    exact ⟨_, rfl, kept.1, kept.2, fun _ => rfl⟩
  | addCoin layer outpoint coin possible_overwrite =>
    rcases allowed layer outpoint coin possible_overwrite rfl with ⟨unspent, permitted⟩
    rcases addCoin_spec valid.1 unspent permitted with
      ⟨added, succeeded, addedValid, addedCoins, _⟩
    refine ⟨{ caches := added :: lower, base }, ?_, ⟨addedValid, valid.2⟩, addedCoins, fun _ => rfl⟩
    simp only [callHere, succeeded]
  | spendCoin layer outpoint =>
    rcases fetchLower_spec (view.getCoin base) cache valid.2 outpoint with
      ⟨lowerValid, lowerSame⟩
    have cacheValid := valid.1
    rw [<- liveCoins_answers] at cacheValid
    refine ⟨_, rfl, ⟨?_, lowerValid⟩, ?_, fun _ => rfl⟩
    · rw [baseCoins, lowerSame, <- liveCoins_answers]
      exact cacheValid.spendCoin _ outpoint
    · change CCoinsViewCache.coins (coins _ (fetchLower _ cache lower outpoint)) _ = _
      rw [baseCoins, lowerSame, <- liveCoins_answers, coins_spendCoin _ cacheValid, liveCoins_answers]
      rfl
  | uncache layer outpoint =>
    refine ⟨_, rfl, ⟨valid.1.uncache outpoint, valid.2⟩, ?_, fun _ => rfl⟩
    change (cache.uncache outpoint).coins (coins (liveCoins (view.getCoin base)) lower) = cache.coins _
    rcases uncache_cases cache outpoint with same | ⟨entry, located, clean, dropped⟩
    · rw [same]
    · rw [dropped, coins_drop, <- (valid.1 outpoint entry located).clean_same clean,
        <- coins_of_find_some _ located, update_eq_self]
  | flush layer =>
    rcases flush_spec view order valid with ⟨after, succeeded, afterValid, afterSame⟩
    exact ⟨after, succeeded, afterValid, afterSame, fun notFlush => absurd rfl notFlush⟩

variable {after stack : Stack State} {store : Store COutPoint Coin}

section

variable {above here : List CCoinsViewCache} (split : above ++ here = stack.caches)
  (agrees : Agrees view stack store) (valid : Valid (after.baseCoins view) after.caches)

include split agrees valid

/-- A call that keeps the meaning of the layers it reaches keeps that of the stack. -/
theorem agrees_of_unchanged
    (same : coins (after.baseCoins view) after.caches = coins (stack.baseCoins view) here) :
    Agrees view { after with caches := above ++ after.caches } store := by
  rcases agrees with ⟨allValid, allSame⟩
  rw [<- split] at allValid allSame
  suffices lifted : Valid (after.baseCoins view) (above ++ after.caches) /\
      coins (after.baseCoins view) (above ++ after.caches) = coins (stack.baseCoins view) (above ++ here) from
    ⟨lifted.1, lifted.2.trans allSame⟩
  clear split allSame
  induction above with
  | nil => exact ⟨valid, same⟩
  | cons cache rest ih =>
    rcases ih allValid.2 with ⟨restValid, restSame⟩
    refine ⟨⟨?_, restValid⟩, ?_⟩
    · change cache.Valid (coins _ (rest ++ after.caches))
      rw [restSame]
      exact allValid.1
    · simp only [cons_append, coins, restSame]

/-- A call that changes one outpoint in the layers it reaches changes it in the
stack, if the layers above have no entry for it. -/
theorem agrees_of_changed {outpoint : COutPoint} {value : Option Coin}
    (sameBase : after.baseCoins view = stack.baseCoins view)
    (uncached : ∀ cache ∈ above, cache.find outpoint = none)
    (changed : coins (after.baseCoins view) after.caches =
      update (coins (stack.baseCoins view) here) outpoint value) :
    Agrees view { after with caches := above ++ after.caches } (update store outpoint value) := by
  have allValid := agrees.valid
  have allSame := agrees.same
  rw [<- split] at allValid allSame
  rw [<- sameBase] at changed allValid allSame
  suffices lifted : Valid (after.baseCoins view) (above ++ after.caches) /\
      coins (after.baseCoins view) (above ++ after.caches) =
        update (coins (after.baseCoins view) (above ++ here)) outpoint value from
    ⟨lifted.1, lifted.2.trans (allSame ▸ rfl)⟩
  clear split allSame
  induction above with
  | nil => exact ⟨valid, changed⟩
  | cons cache rest ih =>
    have absent := uncached cache (.head _)
    rcases ih (forall_mem_cons.mp uncached).2 allValid.2 with ⟨restValid, restChanged⟩
    refine ⟨⟨?_, restValid⟩, ?_⟩
    · intro other entry located
      have different : other ≠ outpoint := by
        intro same
        rw [same, absent] at located
        cases located
      change EntryValid (coins _ (rest ++ after.caches) other) entry
      rw [restChanged, update_of_ne different]
      exact allValid.1 other entry located
    · simp only [cons_append, coins, restChanged]
      funext other
      by_cases same : other = outpoint
      · subst same
        rw [update_self, coins_of_find_none _ absent, update_self]
      · simp only [CCoinsViewCache.coins, update_of_ne same]

end

/-- **One call.**  Under the contract, no call throws, and each call does to the
stack what it does to the reference map. -/
theorem step_spec
    (agrees : Agrees view stack store) (call : Call) (promised : Contract stack store call) :
    ∃ next, step view order stack call = .ok next /\ Agrees view next (reference store call) := by
  rcases promised with ⟨inRange, promised⟩
  rcases exists_cons_of_length_pos (length_pos_of_ne_nil
    (mt drop_eq_nil_iff.mp (not_le.mpr inRange))) with ⟨cache, lower, dropped⟩
  have split : stack.caches.take call.layer ++ cache :: lower = stack.caches := by
    rw [<- dropped, take_append_drop]
  have allValid := agrees.valid
  have allSame := agrees.same
  rw [<- split] at allValid allSame
  have allowed : ∀ layer outpoint coin possible_overwrite,
    call = .addCoin layer outpoint coin possible_overwrite -> coin.isSpent = false /\
      (possible_overwrite = true \/ coins (stack.baseCoins view) (cache :: lower) outpoint = none) := by
    intro layer outpoint coin possible_overwrite same
    subst same
    refine ⟨promised.1, promised.2.1.imp_right ?_⟩
    intro nothing
    rw [<- coins_append_of_uncached _ (cache :: lower) _ promised.2.2]
    exact (congrFun allSame outpoint).trans nothing
  rcases callHere_spec view order call (valid_of_append _ _ allValid) allowed with
    ⟨after, succeeded, here⟩
  refine ⟨{ after with caches := stack.caches.take call.layer ++ after.caches }, ?_, ?_⟩
  · simp only [step, dropped, succeeded]
  cases call with
  | addCoin layer outpoint coin possible_overwrite =>
    have sameBase := here.base_of_ne_flush (by simp)
    have hereSame := here.same
    simp only [reference, addLive] at hereSame ⊢
    by_cases unspendable : coin.out.scriptPubKey.isUnspendable = true
    · rw [if_pos unspendable] at hereSame ⊢
      exact agrees_of_unchanged view split agrees here.valid hereSame
    · rw [if_neg unspendable] at hereSame ⊢
      exact agrees_of_changed view split agrees here.valid sameBase promised.2.2 hereSame
  | spendCoin layer outpoint =>
    have sameBase := here.base_of_ne_flush (by simp)
    exact agrees_of_changed view split agrees here.valid sameBase promised here.same
  | getCoin | haveCoin | accessCoin | uncache | flush =>
    exact agrees_of_unchanged view split agrees here.valid here.same

theorem flush_shape (succeeded : flush view order cache lower base = .ok after) :
    ∃ rest, after.caches = { cache with cacheCoins := ∅ } :: rest /\ rest.length = lower.length := by
  cases lower with
  | nil =>
    simp only [flush, Except.ok.injEq] at succeeded
    subst succeeded
    exact ⟨[], rfl, rfl⟩
  | cons _ rest =>
    simp only [flush] at succeeded
    split at succeeded
    · cases succeeded
    · next written _ =>
      rw [Except.ok.injEq] at succeeded
      subst succeeded
      exact ⟨written :: rest, rfl, rfl⟩

/-- After the first layers have been flushed from the top down, they are empty and
the stack still stands for the same map. -/
theorem runSteps_flush (agrees : Agrees view stack store) : ∀ count ≤ stack.caches.length,
      ∃ last, runSteps (step view order) stack ((List.range count).map Call.flush) = .ok last /\
        Agrees view last store /\ last.caches.length = stack.caches.length /\
        ∀ cache ∈ last.caches.take count, cache.cacheCoins = ∅ := by
  intro count
  induction count with
  | zero =>
    intro _
    exact ⟨stack, rfl, agrees, rfl, by simp⟩
  | succ count ih =>
    intro bound
    rcases ih (Nat.le_of_succ_le bound) with
      ⟨middle, reached, middleAgrees, _, emptied⟩
    have inRange : count < middle.caches.length := by omega
    rcases step_spec view order middleAgrees (.flush count) ⟨inRange, trivial⟩ with
      ⟨last, stepped, lastAgrees⟩
    have dropped := drop_eq_getElem_cons inRange
    have flushed := stepped
    simp only [step, Call.layer, dropped, callHere] at flushed
    split at flushed
    · cases flushed
    next _ succeeded =>
    rw [Except.ok.injEq] at flushed
    rcases flush_shape view order succeeded with ⟨rest, shape, restLength⟩
    have takeLength : (middle.caches.take count).length = count := by
      rw [length_take]
      omega
    have lastCaches : last.caches = middle.caches.take count ++
      { middle.caches[count] with cacheCoins := ∅ } :: rest := by
      rw [<- flushed, <- shape]
    refine ⟨last, ?_, lastAgrees, ?_, ?_⟩
    · rw [range_succ, map_append, runSteps_append _ _ _ _ _ reached]
      simp only [map_cons, map_nil, runSteps, stepped]
    · rw [lastCaches, length_append, length_cons, restLength, length_drop]
      omega
    intro cache member
    rw [lastCaches, take_append, takeLength, take_take] at member
    have atMost : min (count + 1) count = count := by omega
    rw [atMost, Nat.add_sub_cancel_left, take_succ_cons, take_zero,
      mem_append, mem_singleton] at member
    rcases member with earlier | now
    · exact emptied cache earlier
    · rw [now]

theorem coins_of_emptied (below : Store COutPoint Coin) (caches : List CCoinsViewCache)
    (emptied : ∀ cache ∈ caches, cache.cacheCoins = ∅) : coins below caches = below := by
  induction caches with
  | nil => rfl
  | cons cache _ ih =>
    have restSame := ih (forall_mem_cons.mp emptied).2
    rw [coins, restSame]
    funext outpoint
    apply coins_of_find_none
    rw [find, emptied cache (.head _), AList.lookup_empty]

/-- The answers of the top layer to the four calls that return a coin, next to the reference map.  A
coin handed out as spent stands for no coin. -/
structure TopAnswers (stack : Stack State) (store : Store COutPoint Coin) : Prop where
  getCoin : ∀ cache lower outpoint, stack.caches = cache :: lower ->
    (cache.getCoin (answers (view.getCoin stack.base) lower) outpoint).1 = store outpoint
  haveCoin : ∀ cache lower outpoint, stack.caches = cache :: lower ->
    (cache.haveCoin (answers (view.getCoin stack.base) lower) outpoint).1 = (store outpoint).isSome
  accessCoin : ∀ cache lower outpoint, stack.caches = cache :: lower ->
    (cache.accessCoin (answers (view.getCoin stack.base) lower) outpoint).1.live = store outpoint
  spendCoin : ∀ cache lower outpoint, stack.caches = cache :: lower ->
    (cache.spendCoin (answers (view.getCoin stack.base) lower) outpoint).1.bind Coin.live =
      store outpoint

theorem Agrees.topAnswers (agrees : Agrees view stack store) : TopAnswers view stack store := by
  have meaning : ∀ cache lower, stack.caches = cache :: lower ->
    cache.coins (liveCoins (answers (view.getCoin stack.base) lower)) = store := by
    intro cache lower shape
    rw [liveCoins_answers, <- agrees.same, shape]
    rfl
  refine ⟨?_, ?_, ?_, ?_⟩
  · intro cache lower outpoint shape
    rw [getCoin_fst, meaning cache lower shape]
  · intro cache lower outpoint shape
    rw [haveCoin_fst, meaning cache lower shape]
  · intro cache lower outpoint shape
    rw [accessCoin_fst, meaning cache lower shape]
  · intro cache lower outpoint shape
    rw [spendCoin_fst, meaning cache lower shape]

/-- **The stack of caches refines a map.**  Under the contract no call throws, the top layer answers
like the reference map on which the same additions and removals were made, and flushing every layer
leaves that map in the base view. -/
theorem stack_refines_reference (layers : Nat) (base : State) (calls : List Call)
    (promised : Promised (step view order) reference Contract (new layers base)
      (liveCoins (view.getCoin base)) calls) :
    ∃ stack, runSteps (step view order) (new layers base) calls = .ok stack /\
      TopAnswers view stack (calls.foldl reference (liveCoins (view.getCoin base))) /\
      ∃ flushed, flushAll view order stack = .ok flushed /\ liveCoins (view.getCoin flushed.base) =
          calls.foldl reference (liveCoins (view.getCoin base)) := by
  have initial : Agrees view (new layers base) (liveCoins (view.getCoin base)) :=
    ⟨valid_replicate_new _ layers, coins_replicate_new _ layers⟩
  have stepRefines : ∀ stack store call, Agrees view stack store ->
    Contract stack store call -> ∃ next, step view order stack call = .ok next /\
      Agrees view next (reference store call) := by
    intro stack store call agrees contract
    exact step_spec view order agrees call contract
  rcases runSteps_refines stepRefines calls _ _ initial promised with ⟨stack, reached, agrees⟩
  refine ⟨stack, reached, agrees.topAnswers view, ?_⟩
  rcases runSteps_flush view order agrees stack.caches.length (le_refl _) with
    ⟨last, finished, lastAgrees, sameLength, emptied⟩
  refine ⟨last, finished, ?_⟩
  rw [<- sameLength, take_length] at emptied
  rw [<- lastAgrees.same, coins_of_emptied _ _ emptied]
  rfl

end

/-! ## A base view, and the calls outside the contract -/

theorem dirtyOps_alive (items : List CCoinsItem) (op : BatchOp COutPoint Coin)
    (member : op ∈ dirtyOps items) : op.value.bind live = op.value := by
  rcases mem_filterMap.mp member with ⟨item, _, asked⟩
  rw [(dirtyOp_eq_some asked).2.2]
  cases found : item.snd.coin.live with
  | none => rfl
  | some coin => exact live_of_unspent (unspent_of_live_eq_some found)

def mapView : BaseView (Store COutPoint Coin) where
  getCoin := fun store => store
  batchWrite := fun store items _ => writeBatch store (dirtyOps items)
  coins_batchWrite := by
    intro store items _ _
    funext outpoint
    simp only [liveCoins, writeBatch_eq_lastOp]
    cases last : lastOp (dirtyOps items) outpoint with
    | none => rfl
    | some value =>
      rcases exists_of_lastOp_eq_some last with ⟨op, member, _, sameValue⟩
      rw [Option.getD_some, <- sameValue]
      exact dirtyOps_alive items op member

def sampleOutpoint : COutPoint := ⟨1, 0⟩

def sampleCoin : Coin := { out := ⟨5, []⟩, fCoinBase := false, nHeight := 1 }

/-- A coin is added on the top of two caches, flushed one layer down, read again and
spent there. -/
theorem stack_refines_reference_sample :
    ∃ stack, runSteps (step mapView stored) (new 2 (fun _ => none))
      [.addCoin 0 sampleOutpoint sampleCoin false, .flush 0, .getCoin 0 sampleOutpoint,
        .spendCoin 0 sampleOutpoint] = .ok stack /\
      TopAnswers mapView stack (update (update (fun _ => none) sampleOutpoint
        (some sampleCoin)) sampleOutpoint none) /\ ∃ flushed, flushAll mapView stored stack = .ok flushed /\
        liveCoins (mapView.getCoin flushed.base) = update (update (fun _ => none)
          sampleOutpoint (some sampleCoin)) sampleOutpoint none := by
  apply stack_refines_reference mapView stored 2 (fun _ => none)
    [.addCoin 0 sampleOutpoint sampleCoin false, .flush 0, .getCoin 0 sampleOutpoint,
      .spendCoin 0 sampleOutpoint]
  refine ⟨⟨by decide, rfl, .inr rfl, by intro cache member; cases member⟩, ?_⟩
  intro first stepped
  cases stepped
  refine ⟨⟨by decide, trivial⟩, ?_⟩
  intro second stepped
  cases stepped
  refine ⟨⟨by decide, trivial⟩, ?_⟩
  intro third stepped
  cases stepped
  refine ⟨⟨by decide, ?_⟩, ?_⟩
  · intro cache member
    cases member
  · intro fourth _
    exact trivial

/-- The contract's last clause is needed.  The top keeps a copy of a coin that is added one layer
below, and goes on answering with it when it is spent there. -/
theorem spend_below_top_is_not_seen :
    ∃ stack, runSteps (step mapView stored) (new 2 (fun _ => none))
      [.addCoin 1 sampleOutpoint sampleCoin false, .getCoin 0 sampleOutpoint,
        .spendCoin 1 sampleOutpoint] = .ok stack /\
      (getCoin (mapView.getCoin stack.base) stack.caches sampleOutpoint).1 = some sampleCoin /\
      ([Call.addCoin 1 sampleOutpoint sampleCoin false, .getCoin 0 sampleOutpoint,
        .spendCoin 1 sampleOutpoint].foldl reference (fun _ => none)) sampleOutpoint = none :=
  ⟨_, rfl, rfl, rfl⟩

end Stack
end StakeCubeCoin.Coins
