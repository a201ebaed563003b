import Mathlib.Data.List.Sort

namespace StakeCubeCoin.Library

open List

/-!
# A cache that forgets what was used least recently

`unordered_lru_cache`.  Every entry carries the value of a counter at its last access.  Entries
are only dropped when one is added to a cache that has grown beyond a threshold; then those
accessed last are kept.

A user of the cache depends on two facts only: what the cache answers, and that no operation
makes it answer something that was not put in.
-/

/-- An entry: its key, its value and the counter at its last access. -/
structure LruEntry (K V : Type) where
  key : K
  value : V
  accessed : Nat

/-- `unordered_lru_cache`, with at most one entry for a key. -/
structure LruCache (K V : Type) where
  maxSize : Nat
  truncateThreshold : Nat
  accessCounter : Nat
  cacheMap : List (LruEntry K V)
  nodup : (cacheMap.map LruEntry.key).Nodup

namespace LruCache

variable {K V : Type} [DecidableEq K]

def empty (maxSize : Nat) : LruCache K V where
  maxSize := maxSize
  truncateThreshold := maxSize * 2
  accessCounter := 0
  cacheMap := []
  nodup := nodup_nil

variable (cache : LruCache K V) (key : K)

def lookup : Option V :=
  (cache.cacheMap.find? fun entry => entry.key == key).map LruEntry.value

variable (change : LruEntry K V -> V)

def setEntry (accessed : Nat) (entry : LruEntry K V) : LruEntry K V :=
  if entry.key = key then { key := entry.key, value := change entry, accessed } else entry

theorem key_setEntry (accessed : Nat) (entry : LruEntry K V) :
    (setEntry key change accessed entry).key = entry.key := by
  unfold setEntry
  split <;> rfl

/-- Replace the entry of a key, if there is one, by one that was accessed now. -/
def touch : LruCache K V where
  maxSize := cache.maxSize
  truncateThreshold := cache.truncateThreshold
  accessCounter := cache.accessCounter + 1
  cacheMap := cache.cacheMap.map (setEntry key change cache.accessCounter)
  nodup := by
    have keys : (cache.cacheMap.map (setEntry key change cache.accessCounter)).map LruEntry.key =
      cache.cacheMap.map LruEntry.key := by
      rw [map_map]
      exact map_congr_left fun entry _ => key_setEntry key change cache.accessCounter entry
    rw [keys]
    exact cache.nodup

def get : Option V × LruCache K V :=
  match cache.lookup key with
  | none => (none, cache)
  | some value => (some value, cache.touch key LruEntry.value)

def erase : LruCache K V where
  maxSize := cache.maxSize
  truncateThreshold := cache.truncateThreshold
  accessCounter := cache.accessCounter
  cacheMap := cache.cacheMap.filter fun entry => decide (entry.key ≠ key)
  nodup := cache.nodup.sublist (filter_sublist.map LruEntry.key)

variable (entries : List (LruEntry K V))

/-- The entries in the order in which they are kept: those accessed last first. -/
def byAccess : List (LruEntry K V) :=
  entries.insertionSort fun first second => second.accessed <= first.accessed

omit [DecidableEq K] in
theorem byAccess_perm : (byAccess entries).Perm entries :=
  perm_insertionSort _ entries

def truncateIfNeeded : LruCache K V :=
  if cache.cacheMap.length <= cache.truncateThreshold then cache
  else
    { maxSize := cache.maxSize
      truncateThreshold := cache.truncateThreshold
      accessCounter := cache.accessCounter
      cacheMap := (byAccess cache.cacheMap).take cache.maxSize
      nodup := by
        have sorted : ((byAccess cache.cacheMap).map LruEntry.key).Nodup :=
          (((byAccess_perm cache.cacheMap).map LruEntry.key).nodup_iff).mpr cache.nodup
        exact sorted.sublist ((take_sublist _ _).map LruEntry.key) }

def add (value : V) (absent : cache.lookup key = none) : LruCache K V where
  maxSize := cache.maxSize
  truncateThreshold := cache.truncateThreshold
  accessCounter := cache.accessCounter + 1
  cacheMap := { key, value, accessed := cache.accessCounter } :: cache.cacheMap
  nodup := by
    rw [map_cons, nodup_cons]
    refine ⟨?_, cache.nodup⟩
    intro member
    rcases mem_map.mp member with ⟨entry, present, same⟩
    have none := find?_eq_none.mp (Option.map_eq_none_iff.mp absent) entry present
    exact none (by simp [same])

def insert (value : V) : LruCache K V :=
  let truncated := cache.truncateIfNeeded
  match absent : truncated.lookup key with
  | none => truncated.add key value absent
  | some _ => truncated.touch key fun _ => value

theorem lookup_eq_some_iff (value : V) : cache.lookup key = some value <->
      ∃ entry ∈ cache.cacheMap, entry.key = key /\ entry.value = value := by
  constructor
  · intro found
    rcases Option.map_eq_some_iff.mp found with ⟨entry, first, same⟩
    have sameKey : (entry.key == key) = true :=
      @List.find?_some _ (fun entry : LruEntry K V => entry.key == key) _ _ first
    exact ⟨entry, mem_of_find?_eq_some first, eq_of_beq sameKey, same⟩
  · rintro ⟨entry, present, sameKey, sameValue⟩
    cases first : cache.cacheMap.find? fun entry => entry.key == key with
    | none =>
      exact absurd (beq_iff_eq.mpr sameKey) (find?_eq_none.mp first entry present)
    | some other =>
      have otherKey : (other.key == key) = true :=
        @List.find?_some _ (fun entry : LruEntry K V => entry.key == key) _ _ first
      have equal : other = entry :=
        inj_on_of_nodup_map cache.nodup (mem_of_find?_eq_some first) present
          ((eq_of_beq otherKey).trans sameKey.symm)
      rw [lookup, first, equal, <- sameValue]
      rfl

theorem get_fst : (cache.get key).1 = cache.lookup key := by
  unfold get
  split
  · next absent => exact absent.symm
  · next _ found => exact found.symm

theorem lookup_touch (other : K) (change : LruEntry K V -> V) (value : V) :
    (cache.touch key change).lookup other = some value <-> ∃ entry ∈ cache.cacheMap,
        entry.key = other /\ (if other = key then change entry else entry.value) = value := by
  rw [lookup_eq_some_iff]
  constructor
  · rintro ⟨entry, present, sameKey, sameValue⟩
    rcases mem_map.mp present with ⟨before, member, rfl⟩
    rw [key_setEntry] at sameKey
    refine ⟨before, member, sameKey, ?_⟩
    rw [<- sameKey, <- sameValue, setEntry]
    split <;> rfl
  · rintro ⟨entry, present, sameKey, sameValue⟩
    refine ⟨_, mem_map_of_mem present, ?_, ?_⟩
    · rw [key_setEntry, sameKey]
    · rw [<- sameValue, <- sameKey, setEntry]
      split <;> rfl

theorem lookup_get (other : K) : (cache.get key).2.lookup other = cache.lookup other := by
  unfold get
  split
  · rfl
  · apply Option.ext
    intro value
    rw [lookup_touch, lookup_eq_some_iff]
    simp

@[simp] theorem lookup_erase_self : (cache.erase key).lookup key = none := by
  apply Option.eq_none_iff_forall_ne_some.mpr
  intro value found
  rcases (lookup_eq_some_iff _ key value).mp found with ⟨_, present, same, _⟩
  exact of_decide_eq_true (mem_filter.mp present).2 same

variable {key : K} {cache : LruCache K V} {value : V}

theorem lookup_of_lookup_erase {other : K}
    (found : (cache.erase key).lookup other = some value) : cache.lookup other = some value := by
  rcases (lookup_eq_some_iff _ other value).mp found with ⟨entry, present, same, sameValue⟩
  exact (lookup_eq_some_iff cache other value).mpr ⟨entry, (mem_filter.mp present).1,
    same, sameValue⟩

theorem lookup_of_lookup_truncateIfNeeded
    (found : cache.truncateIfNeeded.lookup key = some value) : cache.lookup key = some value := by
  unfold truncateIfNeeded at found
  split at found
  · exact found
  · rcases (lookup_eq_some_iff _ key value).mp found with ⟨entry, present, same, sameValue⟩
    have member : entry ∈ cache.cacheMap :=
      (byAccess_perm cache.cacheMap).mem_iff.mp (mem_of_mem_take present)
    exact (lookup_eq_some_iff cache key value).mpr ⟨entry, member, same, sameValue⟩

@[simp] theorem lookup_insert_self (cache : LruCache K V) (key : K) (value : V) :
    (cache.insert key value).lookup key = some value := by
  unfold insert
  dsimp only
  split
  · exact (lookup_eq_some_iff _ key value).mpr ⟨_, (.head _), rfl, rfl⟩
  · next _ old found =>
    rcases (lookup_eq_some_iff _ key old).mp found with ⟨entry, present, same, _⟩
    exact (lookup_touch _ key key _ value).mpr ⟨entry, present, same, if_pos rfl⟩

/-- What is answered for another key after an insertion was answered before. -/
theorem lookup_of_lookup_insert {other : K} {answer : V}
    (different : other ≠ key) (found : (cache.insert key value).lookup other = some answer) :
    cache.lookup other = some answer := by
  apply lookup_of_lookup_truncateIfNeeded
  unfold insert at found
  dsimp only at found
  split at found
  · rcases (lookup_eq_some_iff _ other answer).mp found with ⟨entry, present, same, sameValue⟩
    rcases mem_cons.mp present with new | old
    · rw [new] at same
      exact absurd same.symm different
    · exact (lookup_eq_some_iff _ other answer).mpr ⟨entry, old, same, sameValue⟩
  · rcases (lookup_touch _ key other _ answer).mp found with ⟨entry, present, same, sameValue⟩
    rw [if_neg different] at sameValue
    exact (lookup_eq_some_iff _ other answer).mpr ⟨entry, present, same, sameValue⟩

end LruCache
end StakeCubeCoin.Library
