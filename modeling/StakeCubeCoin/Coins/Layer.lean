import StakeCubeCoin.Coins.Cache

namespace StakeCubeCoin.Coins

open Primitives Library Function Coin Option Bool List CCoinsViewCache AList

/-!
# What one cache layer means

A layer denotes a map from outpoints to unspent coins: its own entry decides
where it has one, and the layer below decides elsewhere.  The flags are correct
relative to the meaning of the layer below:

* a `FRESH` entry stands over an outpoint with no unspent coin below;
* an entry that is not `DIRTY` agrees with the layer below.

Every operation of the cache is specified once, by its effect on this meaning
and by the fact that it keeps the flags correct.
-/

variable (getCoin : CCoinsView)

/-- The unspent coins behind the raw answers of a view. -/
def liveCoins : Store COutPoint Coin :=
  fun outpoint => (getCoin outpoint).bind Coin.live

theorem liveCoins_unspent (outpoint : COutPoint)
    (coin : Coin) (found : liveCoins getCoin outpoint = some coin) : coin.isSpent = false := by
  rcases bind_eq_some_iff.mp found with ⟨_, _, alive⟩
  exact unspent_of_live_eq_some alive

/-- The flags of an entry are correct over what lies below its outpoint: a fresh entry has nothing
below it, and one that is not dirty repeats what is there. -/
structure EntryValid (below : Option Coin) (entry : CCoinsCacheEntry) : Prop where
  fresh_absent : entry.fresh = true -> below = none
  clean_same : entry.dirty = false -> entry.coin.live = below

/-- A new entry written over an outpoint is valid below as soon as it is dirty and
only claims freshness where nothing lies below. -/
theorem EntryValid.of_dirty {below : Option Coin} {entry : CCoinsCacheEntry}
    (dirty : entry.dirty = true) (fresh : entry.fresh = true -> below = none) :
    EntryValid below entry where
  fresh_absent := fresh
  clean_same := by
    intro clean
    rw [dirty] at clean
    cases clean

namespace CCoinsViewCache

variable (cache : CCoinsViewCache)

@[simp] theorem find_set_self (outpoint : COutPoint)
    (entry : CCoinsCacheEntry) : (cache.set outpoint entry).find outpoint = some entry :=
  lookup_insert _

variable {outpoint : COutPoint}

theorem find_set_of_ne {other : COutPoint} (entry : CCoinsCacheEntry)
    (different : other ≠ outpoint) :
    (cache.set outpoint entry).find other = cache.find other :=
  lookup_insert_ne different

@[simp] theorem find_drop_self (outpoint : COutPoint) :
    (cache.drop outpoint).find outpoint = none :=
  lookup_erase _ _

theorem find_drop_of_ne {other : COutPoint}
    (different : other ≠ outpoint) : (cache.drop outpoint).find other = cache.find other :=
  lookup_erase_ne different

variable (below : Store COutPoint Coin)

/-- The unspent coins a cache stands for, over the unspent coins below it. -/
def coins (cache : CCoinsViewCache) : Store COutPoint Coin :=
  fun outpoint =>
    match cache.find outpoint with
    | some entry => entry.coin.live
    | none => below outpoint

/-- Every entry carries correct flags. -/
def Valid (cache : CCoinsViewCache) : Prop :=
  ∀ outpoint entry, cache.find outpoint = some entry -> EntryValid (below outpoint) entry

variable {cache : CCoinsViewCache}

theorem coins_of_find_some {entry : CCoinsCacheEntry} (found : cache.find outpoint = some entry) :
    cache.coins below outpoint = entry.coin.live := by
  simp only [coins, found]

theorem coins_of_find_none (absent : cache.find outpoint = none) :
    cache.coins below outpoint = below outpoint := by
  simp only [coins, absent]

theorem coins_set (cache : CCoinsViewCache) (outpoint : COutPoint) (entry : CCoinsCacheEntry) :
    (cache.set outpoint entry).coins below =
      Function.update (cache.coins below) outpoint entry.coin.live := by
  funext other
  by_cases same : other = outpoint
  · subst same
    rw [update_self, coins_of_find_some _ (find_set_self cache other entry)]
  · rw [update_of_ne same]
    simp only [coins, find_set_of_ne cache entry same]

theorem coins_drop (cache : CCoinsViewCache) (outpoint : COutPoint) :
    (cache.drop outpoint).coins below =
      Function.update (cache.coins below) outpoint (below outpoint) := by
  funext other
  by_cases same : other = outpoint
  · subst same
    rw [update_self, coins_of_find_none _ (find_drop_self cache other)]
  · rw [update_of_ne same]
    simp only [coins, find_drop_of_ne cache same]

@[simp] theorem coins_new : new.coins below = below := by
  funext outpoint
  exact coins_of_find_none _ (lookup_empty outpoint)

theorem valid_new : new.Valid below := by
  intro outpoint entry found
  cases found

variable {below : Store COutPoint Coin}

theorem Valid.set (valid : cache.Valid below) {entry : CCoinsCacheEntry}
    (entryValid : EntryValid (below outpoint) entry) : (cache.set outpoint entry).Valid below := by
  intro other found located
  by_cases same : other = outpoint
  · subst same
    rw [find_set_self] at located
    rw [<- Option.some.inj located]
    exact entryValid
  · rw [find_set_of_ne cache entry same] at located
    exact valid other found located

theorem Valid.drop
    (valid : cache.Valid below) (outpoint : COutPoint) : (cache.drop outpoint).Valid below := by
  intro other found located
  by_cases same : other = outpoint
  · subst same
    rw [find_drop_self] at located
    cases located
  · rw [find_drop_of_ne cache same] at located
    exact valid other found located

/-- Every coin a layer over unspent coins stands for is unspent. -/
theorem coins_unspent
    (unspentBelow : ∀ outpoint coin, below outpoint = some coin -> coin.isSpent = false)
    (cache : CCoinsViewCache) {coin : Coin} (found : cache.coins below outpoint = some coin) :
    coin.isSpent = false := by
  unfold coins at found
  split at found
  · exact unspent_of_live_eq_some found
  · exact unspentBelow outpoint coin found

/-! ## Reads keep the meaning -/

section

variable (base : CCoinsView) {cache : CCoinsViewCache} {outpoint : COutPoint}

/-- What `FetchCoin` can do: keep the cache, or add the clean copy of a coin of the base. -/
theorem fetchCoin_cases (cache : CCoinsViewCache) (outpoint : COutPoint) :
    (cache.fetchCoin base outpoint = cache /\ (cache.find outpoint = none -> base outpoint = none)) \/
    (∃ tmp, cache.find outpoint = none /\ base outpoint = some tmp /\ cache.fetchCoin base outpoint =
        cache.set outpoint { coin := tmp, dirty := false, fresh := tmp.isSpent }) := by
  cases located : cache.find outpoint with
  | some _ =>
    refine .inl ⟨by simp only [fetchCoin, located], ?_⟩
    intro absent
    cases absent
  | none =>
    cases answer : base outpoint with
    | none => exact .inl ⟨by simp only [fetchCoin, located, answer], fun _ => rfl⟩
    | some tmp => exact .inr ⟨tmp, rfl, rfl, by simp only [fetchCoin, located, answer]⟩

theorem coins_fetchCoin (cache : CCoinsViewCache) (outpoint : COutPoint) :
    (cache.fetchCoin base outpoint).coins (liveCoins base) = cache.coins (liveCoins base) := by
  rcases fetchCoin_cases base cache outpoint with ⟨same, _⟩ | ⟨tmp, absent, answer, added⟩
  · rw [same]
  rw [added, coins_set]
  have below : tmp.live = cache.coins (liveCoins base) outpoint := by
    rw [coins_of_find_none _ absent]
    simp only [liveCoins, answer, bind_some]
  rw [below, update_eq_self]

theorem Valid.fetchCoin (valid : cache.Valid (liveCoins base))
    (outpoint : COutPoint) : (cache.fetchCoin base outpoint).Valid (liveCoins base) := by
  rcases fetchCoin_cases base cache outpoint with ⟨same, _⟩ | ⟨tmp, _, answer, added⟩
  · rw [same]
    exact valid
  rw [added]
  have below : liveCoins base outpoint = tmp.live := by
    simp only [liveCoins, answer, bind_some]
  refine valid.set ⟨?_, ?_⟩
  · intro spent
    rw [below]
    exact live_of_spent spent
  · intro _
    exact below.symm

/-- After a fetch, a missing entry means that no coin is known. -/
theorem coins_of_fetchCoin_none (absent : (cache.fetchCoin base outpoint).find outpoint = none) :
    cache.coins (liveCoins base) outpoint = none := by
  rcases fetchCoin_cases base cache outpoint with ⟨same, unknown⟩ | ⟨_, _, _, added⟩
  · rw [same] at absent
    rw [coins_of_find_none _ absent]
    simp only [liveCoins, unknown absent, bind_none]
  · rw [added, find_set_self] at absent
    cases absent

theorem coins_of_fetchCoin_some {entry : CCoinsCacheEntry}
    (found : (cache.fetchCoin base outpoint).find outpoint = some entry) :
    cache.coins (liveCoins base) outpoint = entry.coin.live := by
  rw [<- coins_fetchCoin base cache outpoint, coins_of_find_some _ found]

section

variable (cache : CCoinsViewCache)

theorem find_fetchCoin_of_ne {other : COutPoint} (different : other ≠ outpoint) :
    (cache.fetchCoin base outpoint).find other = cache.find other := by
  rcases fetchCoin_cases base cache outpoint with ⟨same, _⟩ | ⟨_, _, _, added⟩
  · rw [same]
  · rw [added, find_set_of_ne cache _ different]

variable (outpoint : COutPoint)

theorem getCoin_snd : (cache.getCoin base outpoint).2 = cache.fetchCoin base outpoint := by
  simp only [getCoin]
  split <;> rfl

theorem getCoin_fst : (cache.getCoin base outpoint).1 = cache.coins (liveCoins base) outpoint := by
  simp only [getCoin]
  split
  · next _ found => rw [coins_of_fetchCoin_some base found, live]
  · next absent => rw [coins_of_fetchCoin_none base absent]

theorem haveCoin_snd : (cache.haveCoin base outpoint).2 = cache.fetchCoin base outpoint := by
  simp only [haveCoin]
  split <;> rfl

theorem haveCoin_fst :
    (cache.haveCoin base outpoint).1 = (cache.coins (liveCoins base) outpoint).isSome := by
  simp only [haveCoin]
  split
  · next entry found =>
    rw [coins_of_fetchCoin_some base found, live]
    cases entry.coin.isSpent <;> rfl
  · next absent => rw [coins_of_fetchCoin_none base absent]; rfl

theorem accessCoin_snd : (cache.accessCoin base outpoint).2 = cache.fetchCoin base outpoint := by
  simp only [accessCoin]
  split <;> rfl

/-- `AccessCoin` returns the unspent coin if there is one, and a spent coin if not. -/
theorem accessCoin_fst :
    (cache.accessCoin base outpoint).1.live = cache.coins (liveCoins base) outpoint := by
  simp only [accessCoin]
  split
  · next _ found => rw [coins_of_fetchCoin_some base found]
  · next absent => rw [coins_of_fetchCoin_none base absent]; rfl

end

/-- The store after a coin is added directly.  Outputs that can never be spent
are not stored. -/
def addLive (store : Store COutPoint Coin) (outpoint : COutPoint) (coin : Coin) :
    Store COutPoint Coin :=
  if coin.out.scriptPubKey.isUnspendable then store
  else Function.update store outpoint (some coin)

/-- `AddCoin` of an unspent coin succeeds when overwriting is allowed or nothing is
there to overwrite, and then adds exactly that coin. -/
theorem addCoin_spec {below : Store COutPoint Coin} (valid : cache.Valid below) {coin : Coin}
    {possible_overwrite : Bool} (unspent : coin.isSpent = false)
    (allowed : possible_overwrite = true \/ cache.coins below outpoint = none) :
    ∃ next, cache.addCoin outpoint coin possible_overwrite = .ok next /\
      next.Valid below /\ next.coins below = addLive (cache.coins below) outpoint coin /\
      next.hashBlock = cache.hashBlock := by
  unfold addCoin addLive
  rw [if_neg (by rw [unspent]; decide)]
  by_cases unspendable : coin.out.scriptPubKey.isUnspendable = true
  · rw [if_pos unspendable, if_pos unspendable]
    exact ⟨cache, rfl, valid, rfl, rfl⟩
  rw [if_neg unspendable, if_neg unspendable]
  -- An entry that forbids the addition would contradict the permission.
  have permitted : ¬((!possible_overwrite &&
    !((cache.find outpoint).getD CCoinsCacheEntry.empty).coin.isSpent) = true) := by
    rcases allowed with overwrite | nothing
    · simp [overwrite]
    cases located : cache.find outpoint with
    | none => simp [CCoinsCacheEntry.empty]
    | some entry =>
      rw [coins_of_find_some _ located, live_eq_none_iff] at nothing
      simp [nothing]
  refine ⟨_, if_neg permitted, valid.set (EntryValid.of_dirty rfl ?_), ?_, rfl⟩
  · intro fresh
    cases located : cache.find outpoint with
    | none =>
      have noOverwrite : possible_overwrite = false := by
        simpa [located, CCoinsCacheEntry.empty] using fresh
      rw [<- coins_of_find_none below located]
      rcases allowed with overwrite | nothing
      · rw [noOverwrite] at overwrite
        cases overwrite
      · exact nothing
    | some entry =>
      have entryValid := valid outpoint entry located
      simp only [located, getD_some, or_eq_true, and_eq_true, not_eq_true'] at fresh
      rcases fresh with fresh | ⟨noOverwrite, clean⟩
      · exact entryValid.fresh_absent fresh
      rw [<- entryValid.clean_same clean, <- coins_of_find_some below located]
      rcases allowed with overwrite | nothing
      · rw [noOverwrite] at overwrite
        cases overwrite
      · exact nothing
  · rw [coins_set, live_of_unspent unspent]

theorem Valid.spendCoin (valid : cache.Valid (liveCoins base))
    (outpoint : COutPoint) : (cache.spendCoin base outpoint).2.Valid (liveCoins base) := by
  have fetched := valid.fetchCoin base outpoint
  simp only [CCoinsViewCache.spendCoin]
  split
  · exact fetched
  next _ _ =>
  split
  · exact fetched.drop outpoint
  · next stale =>
    refine fetched.set (EntryValid.of_dirty rfl ?_)
    intro fresh
    exact absurd fresh stale

theorem coins_spendCoin (valid : cache.Valid (liveCoins base)) (outpoint : COutPoint) :
    (cache.spendCoin base outpoint).2.coins (liveCoins base) =
      Function.update (cache.coins (liveCoins base)) outpoint none := by
  simp only [CCoinsViewCache.spendCoin]
  split
  · next absent =>
    rw [coins_fetchCoin, <- coins_of_fetchCoin_none base absent, update_eq_self]
  next entry located =>
  split
  · next fresh =>
    have entryValid := valid.fetchCoin base outpoint outpoint entry located
    rw [coins_drop, coins_fetchCoin, entryValid.fresh_absent fresh]
  · rw [coins_set, coins_fetchCoin, live_empty]

theorem spendCoin_fst (cache : CCoinsViewCache) (outpoint : COutPoint) :
    (cache.spendCoin base outpoint).1.bind live = cache.coins (liveCoins base) outpoint := by
  simp only [CCoinsViewCache.spendCoin]
  split
  · next absent => rw [coins_of_fetchCoin_none base absent]; rfl
  · next _ located =>
    rw [coins_of_fetchCoin_some base located]
    split <;> rfl

end

variable {below : Store COutPoint Coin} {cache : CCoinsViewCache}

/-- What `Uncache` can do: keep the cache, or drop a clean entry. -/
theorem uncache_cases (cache : CCoinsViewCache) (outpoint : COutPoint) :
    cache.uncache outpoint = cache \/
    (∃ entry, cache.find outpoint = some entry /\ entry.dirty = false /\
      cache.uncache outpoint = cache.drop outpoint) := by
  unfold uncache
  split
  · next entry located =>
    split
    · next clean =>
      simp only [and_eq_true, not_eq_true'] at clean
      exact .inr ⟨entry, located, clean.1, rfl⟩
    · exact .inl rfl
  · exact .inl rfl

theorem Valid.uncache (valid : cache.Valid below) (outpoint : COutPoint) :
    (cache.uncache outpoint).Valid below := by
  rcases uncache_cases cache outpoint with same | ⟨_, _, _, dropped⟩
  · rw [same]
    exact valid
  · rw [dropped]
    exact valid.drop outpoint

end CCoinsViewCache
/-! ## Merging a flushed layer -/

/-- What flushing an entry asks of the layer below: nothing for a clean entry, and
a write or an erasure for a dirty one. -/
def dirtyOp (item : CCoinsItem) : Option (BatchOp COutPoint Coin) :=
  if item.snd.dirty then
    some (if item.snd.coin.isSpent then .erase item.fst else .write item.fst item.snd.coin)
  else
    none

/-- The operations asked for by a list of entries, in the order they are visited. -/
def dirtyOps (items : List CCoinsItem) : List (BatchOp COutPoint Coin) :=
  items.filterMap dirtyOp

variable {item : CCoinsItem}

theorem dirtyOp_of_clean (clean : item.snd.dirty = false) : dirtyOp item = none := by
  simp [dirtyOp, clean]

theorem exists_dirtyOp_of_dirty (dirty : item.snd.dirty = true) :
    ∃ op, dirtyOp item = some op /\ op.key = item.fst /\ op.value = item.snd.coin.live := by
  refine ⟨_, if_pos dirty, ?_⟩
  cases spent : item.snd.coin.isSpent with
  | false => exact ⟨rfl, (live_of_unspent spent).symm⟩
  | true => exact ⟨rfl, (live_of_spent spent).symm⟩

variable {op : BatchOp COutPoint Coin}

theorem dirtyOp_eq_some (asked : dirtyOp item = some op) :
    item.snd.dirty = true /\ op.key = item.fst /\ op.value = item.snd.coin.live := by
  cases dirty : item.snd.dirty with
  | false =>
    rw [dirtyOp_of_clean dirty] at asked
    cases asked
  | true =>
    rcases exists_dirtyOp_of_dirty dirty with ⟨_, located, sameKey, sameValue⟩
    rw [located] at asked
    rw [<- Option.some.inj asked]
    exact ⟨rfl, sameKey, sameValue⟩

namespace IterationOrder

variable (order : IterationOrder) (cache : CCoinsViewCache)

theorem mem_visit_iff (item : CCoinsItem) :
    item ∈ order.visit cache.cacheCoins <-> cache.find item.fst = some item.snd := by
  rw [(order.perm cache.cacheCoins).mem_iff]
  exact mem_lookup_iff.symm

theorem nodup_keys_visit : ((order.visit cache.cacheCoins).map Sigma.fst).Nodup :=
  ((order.perm cache.cacheCoins).map Sigma.fst).nodup_iff.mpr cache.cacheCoins.nodupKeys

end IterationOrder

variable {cache : CCoinsViewCache}

/-- Any operation on an outpoint comes from the one entry there. -/
theorem mem_dirtyOps {order : IterationOrder}
    (member : op ∈ dirtyOps (order.visit cache.cacheCoins)) :
    ∃ entry, cache.find op.key = some entry /\ entry.dirty = true /\ op.value = entry.coin.live := by
  rcases mem_filterMap.mp member with ⟨item, visited, asked⟩
  rcases dirtyOp_eq_some asked with ⟨dirty, sameKey, sameValue⟩
  rw [sameKey]
  exact ⟨item.snd, (order.mem_visit_iff cache item).mp visited, dirty, sameValue⟩

/-- Flushing a valid layer into the store below it leaves there what the layer
stood for, in whatever order its entries are visited. -/
theorem writeBatch_dirtyOps {below : Store COutPoint Coin}
    (valid : cache.Valid below) (order : IterationOrder) :
    writeBatch below (dirtyOps (order.visit cache.cacheCoins)) = cache.coins below := by
  funext outpoint
  cases located : cache.find outpoint with
  | none =>
    rw [coins_of_find_none below located]
    apply writeBatch_of_untouched
    intro op member same
    rcases mem_dirtyOps member with ⟨entry, found, _⟩
    rw [same, located] at found
    cases found
  | some entry =>
    rw [coins_of_find_some below located]
    cases dirty : entry.dirty with
    | false =>
      rw [(valid outpoint entry located).clean_same dirty]
      apply writeBatch_of_untouched
      intro op member same
      rcases mem_dirtyOps member with ⟨found, locatedOp, dirtyOp, _⟩
      rw [same, located] at locatedOp
      rw [<- Option.some.inj locatedOp, dirty] at dirtyOp
      cases dirtyOp
    | true =>
      apply writeBatch_of_agree
      · let item : CCoinsItem := ⟨outpoint, entry⟩
        have itemDirty : item.snd.dirty = true := dirty
        rcases exists_dirtyOp_of_dirty itemDirty with ⟨op, asked, sameKey, _⟩
        exact ⟨op, mem_filterMap.mpr
          ⟨item, (order.mem_visit_iff cache item).mpr located, asked⟩, sameKey⟩
      · intro op member same
        rcases mem_dirtyOps member with ⟨found, locatedOp, _, sameValue⟩
        rw [same, located] at locatedOp
        rw [sameValue, <- Option.some.inj locatedOp]

namespace CCoinsViewCache

variable {below : Store COutPoint Coin} {cache : CCoinsViewCache}

/-- One round of `BatchWrite`: nothing is thrown if the flags of the entry above are correct, and
the round performs what the entry asks for. -/
theorem batchWriteEntry_spec (valid : cache.Valid below) {item : CCoinsItem}
    (freshAbsent : item.snd.fresh = true -> cache.coins below item.fst = none) :
    ∃ next, cache.batchWriteEntry item = .ok next /\ next.Valid below /\
      next.coins below = writeBatch (cache.coins below) (dirtyOp item).toList := by
  cases dirty : item.snd.dirty with
  | false =>
    refine ⟨cache, ?_, valid, ?_⟩
    · simp [batchWriteEntry, dirty]
    · rw [dirtyOp_of_clean dirty]
      rfl
  | true =>
    rcases exists_dirtyOp_of_dirty dirty with ⟨_, asked, sameKey, sameValue⟩
    have effect : writeBatch (cache.coins below) (dirtyOp item).toList =
      Function.update (cache.coins below) item.fst item.snd.coin.live := by
      rw [asked, toList_some, writeBatch_cons, writeBatch_nil, BatchOp.apply, sameKey, sameValue]
    rw [effect]
    unfold batchWriteEntry
    rw [if_neg (by rw [dirty]; decide)]
    cases located : cache.find item.fst with
    | none =>
      by_cases ignored : (item.snd.fresh && item.snd.coin.isSpent) = true
      · simp only [ignored, if_true]
        rw [and_eq_true] at ignored
        refine ⟨cache, rfl, valid, ?_⟩
        rw [live_of_spent ignored.2, <- freshAbsent ignored.1, update_eq_self]
      · simp only [ignored]
        refine ⟨_, rfl, valid.set (EntryValid.of_dirty rfl ?_), coins_set below cache _ _⟩
        intro fresh
        rw [<- coins_of_find_none below located]
        exact freshAbsent fresh
    | some itUs =>
      have entryValid := valid item.fst itUs located
      have notMisapplied : ¬((item.snd.fresh && !itUs.coin.isSpent) = true) := by
        intro misapplied
        simp only [and_eq_true, not_eq_true'] at misapplied
        have absent := freshAbsent misapplied.1
        rw [coins_of_find_some below located, live_of_unspent misapplied.2] at absent
        cases absent
      simp only [notMisapplied]
      by_cases erased : (itUs.fresh && item.snd.coin.isSpent) = true
      · simp only [erased, if_true]
        rw [and_eq_true] at erased
        refine ⟨_, rfl, valid.drop item.fst, ?_⟩
        rw [coins_drop, entryValid.fresh_absent erased.1, live_of_spent erased.2]
      · simp only [erased]
        exact ⟨_, rfl, valid.set (EntryValid.of_dirty rfl entryValid.fresh_absent),
          coins_set below cache _ _⟩

/-- The loop of `BatchWrite`, by induction over the entries visited.  Distinct
outpoints keep the freshness of the entries still to come. -/
theorem foldlM_batchWriteEntry_spec (items : List CCoinsItem) {cache : CCoinsViewCache} :
    cache.Valid below -> (items.map Sigma.fst).Nodup ->
      (∀ item ∈ items, item.snd.fresh = true -> cache.coins below item.fst = none) ->
      ∃ next, items.foldlM batchWriteEntry cache = .ok next /\ next.Valid below /\
        next.coins below = writeBatch (cache.coins below) (dirtyOps items) := by
  induction items generalizing cache with
  | nil =>
    intro valid _ _
    exact ⟨cache, rfl, valid, rfl⟩
  | cons item rest ih =>
    intro valid distinct freshAbsent
    rw [map_cons, nodup_cons] at distinct
    rcases batchWriteEntry_spec valid (freshAbsent item (.head _)) with
      ⟨middle, stepped, middleValid, middleCoins⟩
    have remaining : ∀ other ∈ rest, other.snd.fresh = true ->
      middle.coins below other.fst = none := by
      intro other member fresh
      have different : other.fst ≠ item.fst := by
        intro same
        exact distinct.1 (mem_map.mpr ⟨other, member, same⟩)
      rw [middleCoins, writeBatch_of_untouched]
      · exact freshAbsent other (.tail _ member) fresh
      · intro op asked same
        rw [mem_toList] at asked
        exact different (same.symm.trans (dirtyOp_eq_some asked).2.1)
    rcases ih middleValid distinct.2 remaining with
      ⟨next, finished, nextValid, nextCoins⟩
    refine ⟨next, ?_, nextValid, ?_⟩
    · rw [foldlM_cons, stepped]
      exact finished
    rw [nextCoins, middleCoins, <- writeBatch_append]
    unfold dirtyOps
    rw [filterMap_cons]
    cases dirtyOp item with
    | none => rfl
    | some op => rfl

/-- `BatchWrite` of a valid layer into the cache below it: nothing is thrown, and
the cache below then stands for what the layer above stood for. -/
theorem batchWrite_spec {child : CCoinsViewCache} (valid : cache.Valid below)
    (childValid : child.Valid (cache.coins below)) (order : IterationOrder) (hashBlock : Uint256) :
    ∃ next, cache.batchWrite (order.visit child.cacheCoins) hashBlock = .ok next /\
      next.Valid below /\ next.coins below = child.coins (cache.coins below) /\
      next.hashBlock = hashBlock := by
  have freshAbsent : ∀ item ∈ order.visit child.cacheCoins, item.snd.fresh = true ->
    cache.coins below item.fst = none := by
    intro item visited fresh
    exact (childValid item.fst item.snd ((order.mem_visit_iff child item).mp visited)).fresh_absent fresh
  rcases foldlM_batchWriteEntry_spec (order.visit child.cacheCoins) valid
    (order.nodup_keys_visit child) freshAbsent with ⟨written, finished, writtenValid, writtenCoins⟩
  refine ⟨written.setBestBlock hashBlock, ?_, writtenValid, ?_, rfl⟩
  · simp only [batchWrite, finished]
    rfl
  · exact writtenCoins.trans (writeBatch_dirtyOps childValid order)

end CCoinsViewCache
end StakeCubeCoin.Coins
