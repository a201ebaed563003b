import Mathlib.Data.BitVec

namespace StakeCubeCoin.Library

open Option List Function

/-!
# Key/value stores and ordered write batches

A persistent store is read one key at a time, and is changed by batches: finite
lists of writes and erasures which are applied in order.  Nothing is assumed
about the order of keys.

The central object is `lastOp`, the last operation a batch performs on a given
key.  A batch acts on a key through this one value, so statements about long
batches become statements about `lastOp`, which is computed from the two halves
of an append without looking at the store.
-/

/-- A store answers every key with its value, if it has one. -/
abbrev Store (K V : Type) := K -> Option V

inductive BatchOp (K V : Type) where
  | write (key : K) (value : V)
  | erase (key : K)
  deriving DecidableEq

namespace BatchOp

variable {K V : Type}

def key : BatchOp K V -> K
  | .write key _ => key
  | .erase key => key

def value : BatchOp K V -> Option V
  | .write _ value => some value
  | .erase _ => none

variable [DecidableEq K] (store : Store K V) (op : BatchOp K V)

def apply : Store K V :=
  Function.update store op.key op.value

@[simp] theorem apply_key : op.apply store op.key = op.value := by
  simp only [apply, update_self]

theorem apply_of_ne {key : K} (different : key ≠ op.key) : op.apply store key = store key := by
  simp only [apply, update_of_ne different]

end BatchOp

variable {K V : Type} [DecidableEq K] (store : Store K V) (batch : List (BatchOp K V))

def writeBatch : Store K V :=
  batch.foldl BatchOp.apply store

@[simp] theorem writeBatch_nil : writeBatch store [] = store :=
  rfl

@[simp] theorem writeBatch_cons (op : BatchOp K V) (batch : List (BatchOp K V)) :
    writeBatch store (op :: batch) = writeBatch (op.apply store) batch :=
  rfl

variable (first second : List (BatchOp K V))

theorem writeBatch_append :
    writeBatch store (first ++ second) = writeBatch (writeBatch store first) second :=
  foldl_append

/-- The value left at a key by the last operation of a batch on it, or `none`
when the batch does not mention the key. -/
def lastOp : List (BatchOp K V) -> K -> Option (Option V)
  | [], _ => none
  | op :: batch, key =>
    (lastOp batch key).or (if op.key = key then some op.value else none)

variable (key : K)

@[simp] theorem lastOp_nil : lastOp ([] : List (BatchOp K V)) key = none :=
  rfl

theorem lastOp_cons (op : BatchOp K V) (batch : List (BatchOp K V)) (key : K) :
    lastOp (op :: batch) key = (lastOp batch key).or (if op.key = key then some op.value else none) :=
  rfl

theorem lastOp_append :
    lastOp (first ++ second) key = (lastOp second key).or (lastOp first key) := by
  induction first with
  | nil => simp only [nil_append, lastOp_nil, or_none]
  | cons _ _ ih =>
    simp only [cons_append, lastOp_cons, ih, Option.or_assoc]

/-- A batch acts on each key through its last operation there. -/
theorem writeBatch_eq_lastOp :
    writeBatch store batch key = (lastOp batch key).getD (store key) := by
  induction batch generalizing store with
  | nil => rfl
  | cons op rest ih =>
    rw [writeBatch_cons, ih, lastOp_cons]
    cases lastOp rest key with
    | some _ => rfl
    | none =>
      by_cases same : op.key = key
      · subst same
        simp
      · rw [BatchOp.apply_of_ne store op (Ne.symm same), if_neg same]
        rfl

theorem lastOp_eq_none_iff : lastOp batch key = none <-> ∀ op ∈ batch, op.key ≠ key := by
  induction batch with
  | nil => simp only [lastOp_nil, not_mem_nil, false_implies, implies_true]
  | cons op _ ih =>
    rw [lastOp_cons, or_eq_none_iff, ih]
    by_cases same : op.key = key
    · simp [same]
    · simp [same]

variable {key : K} {batch : List (BatchOp K V)}

theorem exists_of_lastOp_eq_some {value : Option V} (last : lastOp batch key = some value) :
    ∃ op ∈ batch, op.key = key /\ op.value = value := by
  induction batch with
  | nil => cases last
  | cons op _ ih =>
    rw [lastOp_cons, or_eq_some_iff] at last
    rcases last with later | ⟨_, now⟩
    · rcases ih later with ⟨found, member, same, left⟩
      exact ⟨found, .tail _ member, same, left⟩
    · split at now
      · next same => exact ⟨op, (.head _), same, Option.some.inj now⟩
      · cases now

/-- When all operations on a key agree, the batch leaves the value they agree on. -/
theorem writeBatch_of_agree {value : Option V} (touched : ∃ op ∈ batch, op.key = key)
    (agree : ∀ op ∈ batch, op.key = key -> op.value = value) :
    writeBatch store batch key = value := by
  rw [writeBatch_eq_lastOp]
  cases last : lastOp batch key with
  | none =>
    rcases touched with ⟨op, member, same⟩
    exact absurd same ((lastOp_eq_none_iff batch key).mp last op member)
  | some _ =>
    rcases exists_of_lastOp_eq_some last with ⟨op, member, same, leaves⟩
    rw [<- leaves]
    exact agree op member same

theorem writeBatch_of_untouched (batch : List (BatchOp K V)) (key : K)
    (untouched : ∀ op ∈ batch, op.key ≠ key) : writeBatch store batch key = store key := by
  rw [writeBatch_eq_lastOp, (lastOp_eq_none_iff batch key).mpr untouched]
  rfl

/-! ## Batches on stores that have seen part of them -/

def eraseAll (keys : List K) : Store K V :=
  writeBatch store (keys.map BatchOp.erase)

theorem eraseAll_apply (keys : List K) (key : K) :
    eraseAll store keys key = if key ∈ keys then none else store key := by
  split
  · next member =>
    refine writeBatch_of_agree store ⟨.erase key, mem_map_of_mem member, rfl⟩ ?_
    intro op asked _
    rcases mem_map.mp asked with ⟨other, _, same⟩
    rw [<- same]
    rfl
  · next missing =>
    apply writeBatch_of_untouched
    intro op asked same
    rcases mem_map.mp asked with ⟨other, member, erased⟩
    rw [<- erased] at same
    exact missing (same ▸ member)

theorem update_eraseAll_cons {store : Store K V} {keys : List K} {value : V}
    (new : key ∉ keys) (held : store key = some value) :
    Function.update (eraseAll store (key :: keys)) key (some value) = eraseAll store keys := by
  funext other
  by_cases same : other = key
  · subst same
    rw [update_self, eraseAll_apply, if_neg new, held]
  · rw [update_of_ne same, eraseAll_apply, eraseAll_apply]
    simp only [mem_cons, same, false_or]

/-- The last operation of a reversed batch on a key is the first one of the batch. -/
theorem lastOp_reverse (batch : List (BatchOp K V)) (key : K) : lastOp batch.reverse key =
      (batch.find? fun op => decide (op.key = key)).map BatchOp.value := by
  induction batch with
  | nil => rfl
  | cons op _ ih =>
    rw [reverse_cons, lastOp_append, ih]
    by_cases same : op.key = key
    · simp [lastOp, same]
    · simp [lastOp, same]

/-- A batch is taken back by inverse operations in the opposite order.  Only the first operation on
a key has to be inverted correctly. -/
theorem writeBatch_undo {ι : Type} (op undo : ι -> BatchOp K V) {items : List ι}
    (sameKey : ∀ item ∈ items, (undo item).key = (op item).key) (store : Store K V)
    (first : ∀ before item after, items = before ++ item :: after ->
      (∃ earlier ∈ before, (op earlier).key = (op item).key) \/ (undo item).value = store (op item).key) :
    writeBatch (writeBatch store (items.map op)) (items.reverse.map undo) = store := by
  funext key
  rw [writeBatch_eq_lastOp, map_reverse, lastOp_reverse, List.find?_map]
  cases found : items.find? ((fun op => decide (op.key = key)) ∘ undo) with
  | none =>
    apply writeBatch_of_untouched
    intro written member same
    rcases mem_map.mp member with ⟨item, listed, rfl⟩
    have other := List.find?_eq_none.mp found item listed
    rw [<- sameKey item listed] at same
    exact other (decide_eq_true same)
  | some item =>
    rw [map_some, map_some, getD_some]
    rcases List.find?_eq_some_iff_append.mp found with ⟨here, before, after, split, earlier⟩
    have listed : item ∈ items := by
      rw [split]
      simp
    have keyed : (undo item).key = key := of_decide_eq_true here
    rcases first before item after split with ⟨other, member, same⟩ | restored
    · have otherListed : other ∈ items := by
        rw [split]
        exact mem_append_left _ member
      have different := earlier other member
      rw [<- sameKey other otherListed, <- sameKey item listed, keyed] at same
      simp [same] at different
    · rw [restored, <- sameKey item listed, keyed]

end StakeCubeCoin.Library
