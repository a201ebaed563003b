import Mathlib.Data.List.AList
import StakeCubeCoin.Library.Store
import StakeCubeCoin.Primitives.Transaction

namespace StakeCubeCoin.Coins

open Primitives

/-!
# One layer of the coins cache

`CCoinsViewCache` of `coins.cpp`, as functions of the view underneath it.  A
cache entry carries a coin and the two flags `DIRTY` and `FRESH`; reads fill the
cache, and a batch of entries flushed from the layer above is merged entry by
entry.

The view underneath answers `GetCoin` through a function `base`.  Such a view is
allowed to return a *spent* coin with success, as the test backend of the source
does: `FetchCoin` has a branch for it.  The statistic `cachedCoinsUsage` is left
out, since no answer depends on it.
-/

structure Coin where
  out : CTxOut
  fCoinBase : Bool
  nHeight : Nat
  deriving DecidableEq

/-- A view of the coins, as what its `GetCoin` answers. -/
abbrev CCoinsView := COutPoint -> Option Coin

namespace Coin

/-- The coin built by the empty constructor, left by `Clear`, and returned by
`AccessCoin` for an outpoint that is not found (`coinEmpty`). -/
def empty : Coin :=
  { out := CTxOut.null, fCoinBase := false, nHeight := 0 }

variable (coin : Coin)

def isSpent : Bool :=
  coin.out.isNull

/-- The coin, if it is unspent. -/
def live : Option Coin :=
  if coin.isSpent then none else some coin

@[simp] theorem isSpent_empty : empty.isSpent = true := rfl

@[simp] theorem live_empty : empty.live = none := rfl

theorem live_eq_none_iff : coin.live = none <-> coin.isSpent = true := by
  simp [live]

theorem live_of_unspent {coin : Coin} (unspent : coin.isSpent = false) : coin.live = some coin := by
  simp [live, unspent]

theorem live_of_spent {coin : Coin} (spent : coin.isSpent = true) : coin.live = none := by
  simp [live, spent]

theorem eq_of_live_eq_some {coin found : Coin} (alive : coin.live = some found) : coin = found := by
  unfold live at alive
  split at alive
  · cases alive
  · exact Option.some.inj alive

theorem unspent_of_live_eq_some {coin found : Coin} (alive : coin.live = some found) :
    found.isSpent = false := by
  have same := eq_of_live_eq_some alive
  subst same
  cases spent : coin.isSpent with
  | false => rfl
  | true => simp [live, spent] at alive

end Coin

/-- A coin in one layer of the cache hierarchy, with its flags. -/
structure CCoinsCacheEntry where
  coin : Coin
  dirty : Bool
  fresh : Bool
  deriving DecidableEq

/-- The entry made by the empty constructor. -/
def CCoinsCacheEntry.empty : CCoinsCacheEntry :=
  { coin := Coin.empty, dirty := false, fresh := false }

abbrev CCoinsMap := AList (fun _ : COutPoint => CCoinsCacheEntry)

/-- One key and entry, as an iterator of the map sees them. -/
abbrev CCoinsItem := Sigma (fun _ : COutPoint => CCoinsCacheEntry)

/-- The unspecified order in which a salted hash table is walked.  Results that hold for every order
do not depend on the salt. -/
structure IterationOrder where
  visit : CCoinsMap -> List CCoinsItem
  perm : ∀ mapCoins, (visit mapCoins).Perm mapCoins.entries

/-- The order in which the model stores the entries. -/
def IterationOrder.stored : IterationOrder where
  visit := AList.entries
  perm := fun _ => List.Perm.refl _

/-- What aborts a call: a failed assertion, or an exception. -/
inductive CoinsError where
  | assertion (expression : String)
  | logicError (what : String)
  deriving DecidableEq

def CoinsError.overwrite : CoinsError :=
  .logicError "Attempted to overwrite an unspent coin (when possible_overwrite is false)"

def CoinsError.freshMisapplied : CoinsError :=
  .logicError "FRESH flag misapplied to coin that exists in parent cache"

structure CCoinsViewCache where
  hashBlock : Uint256
  cacheCoins : CCoinsMap

namespace CCoinsViewCache

def new : CCoinsViewCache :=
  { hashBlock := 0, cacheCoins := ∅ }

variable (cache : CCoinsViewCache) (outpoint : COutPoint)

def set (entry : CCoinsCacheEntry) : CCoinsViewCache :=
  { cache with cacheCoins := cache.cacheCoins.insert outpoint entry }

def drop : CCoinsViewCache :=
  { cache with cacheCoins := cache.cacheCoins.erase outpoint }

def find : Option CCoinsCacheEntry :=
  cache.cacheCoins.lookup outpoint

variable (base : CCoinsView)

/-- `CCoinsViewCache::FetchCoin`: make sure that an entry is cached, if the base
has the coin.  The entry itself is then read with `find`. -/
def fetchCoin (cache : CCoinsViewCache) (outpoint : COutPoint) : CCoinsViewCache :=
  match cache.find outpoint with
  | some _ => cache
  | none =>
    match base outpoint with
    | none => cache
    | some tmp => cache.set outpoint { coin := tmp, dirty := false, fresh := tmp.isSpent }

/-- `CCoinsViewCache::GetCoin`: the coin when the call returns true. -/
def getCoin (cache : CCoinsViewCache) (outpoint : COutPoint) : Option Coin × CCoinsViewCache :=
  let fetched := cache.fetchCoin base outpoint
  match fetched.find outpoint with
  | some entry => (if entry.coin.isSpent then none else some entry.coin, fetched)
  | none => (none, fetched)

def haveCoin (cache : CCoinsViewCache) (outpoint : COutPoint) : Bool × CCoinsViewCache :=
  let fetched := cache.fetchCoin base outpoint
  match fetched.find outpoint with
  | some entry => (!entry.coin.isSpent, fetched)
  | none => (false, fetched)

def accessCoin (cache : CCoinsViewCache) (outpoint : COutPoint) : Coin × CCoinsViewCache :=
  let fetched := cache.fetchCoin base outpoint
  match fetched.find outpoint with
  | some entry => (entry.coin, fetched)
  | none => (Coin.empty, fetched)

/-- `CCoinsViewCache::GetBestBlock`: a null hash is filled in from the base. -/
def getBestBlock (baseBestBlock : Uint256) (cache : CCoinsViewCache) : Uint256 × CCoinsViewCache :=
  if cache.hashBlock.isNull then
    (baseBestBlock, { cache with hashBlock := baseBestBlock })
  else
    (cache.hashBlock, cache)

def setBestBlock (hashBlock : Uint256) : CCoinsViewCache :=
  { cache with hashBlock }

/-- `CCoinsViewCache::AddCoin`.  An absent entry is first emplaced empty. -/
def addCoin (coin : Coin) (possible_overwrite : Bool) : Except CoinsError CCoinsViewCache :=
  if coin.isSpent then
    .error (.assertion "!coin.IsSpent()")
  else if coin.out.scriptPubKey.isUnspendable then
    .ok cache
  else
    let entry := (cache.find outpoint).getD CCoinsCacheEntry.empty
    if !possible_overwrite && !entry.coin.isSpent then
      .error .overwrite
    else
      let fresh := !possible_overwrite && !entry.dirty
      .ok (cache.set outpoint { coin, dirty := true, fresh := entry.fresh || fresh })

/-- `CCoinsViewCache::SpendCoin`.  The first component is the coin moved out,
when the call returns true; it may itself be spent already. -/
def spendCoin (cache : CCoinsViewCache) (outpoint : COutPoint) : Option Coin × CCoinsViewCache :=
  let fetched := cache.fetchCoin base outpoint
  match fetched.find outpoint with
  | none => (none, fetched)
  | some entry =>
    if entry.fresh then
      (some entry.coin, fetched.drop outpoint)
    else
      (some entry.coin, fetched.set outpoint { coin := Coin.empty, dirty := true, fresh := entry.fresh })

/-- `CCoinsViewCache::Uncache`: only an entry without flags is dropped. -/
def uncache : CCoinsViewCache :=
  match cache.find outpoint with
  | some entry => if !entry.dirty && !entry.fresh then cache.drop outpoint else cache
  | none => cache

/-- One round of the loop of `CCoinsViewCache::BatchWrite`. -/
def batchWriteEntry (item : CCoinsItem) : Except CoinsError CCoinsViewCache :=
  if !item.snd.dirty then
    .ok cache
  else
    match cache.find item.fst with
    | none =>
      if item.snd.fresh && item.snd.coin.isSpent then
        .ok cache
      else
        .ok (cache.set item.fst { coin := item.snd.coin, dirty := true, fresh := item.snd.fresh })
    | some itUs =>
      if item.snd.fresh && !itUs.coin.isSpent then
        .error .freshMisapplied
      else if itUs.fresh && item.snd.coin.isSpent then
        .ok (cache.drop item.fst)
      else
        .ok (cache.set item.fst { coin := item.snd.coin, dirty := true, fresh := itUs.fresh })

/-- `CCoinsViewCache::BatchWrite`, over the entries in the order they are visited. -/
def batchWrite (items : List CCoinsItem) (hashBlock : Uint256) :
    Except CoinsError CCoinsViewCache := do
  let written <- items.foldlM batchWriteEntry cache
  pure (written.setBestBlock hashBlock)

end CCoinsViewCache
end StakeCubeCoin.Coins
