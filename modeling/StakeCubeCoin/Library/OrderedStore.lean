import Mathlib.Data.List.Lex
import Mathlib.Data.List.Pairwise
import StakeCubeCoin.Library.Store

namespace StakeCubeCoin.Library

open List

/-!
# Key/value stores with a cursor

A store whose entries are kept in the order of their keys, so that a cursor can be placed at a
key and moved on from there.  Reading and writing do not depend on the order: seen key by key,
it is a `Store`, and batches act on it as they do on any store.
-/

/-- The entries of a store, in the order of their keys. -/
structure OrderedStore (K V : Type) [LinearOrder K] where
  entries : List (K × V)
  sorted : entries.Pairwise fun first second => first.1 < second.1

namespace OrderedStore

variable {K V : Type} [LinearOrder K]

def empty : OrderedStore K V :=
  ⟨[], List.Pairwise.nil⟩

variable (store : OrderedStore K V)

def read : Store K V :=
  fun key => (store.entries.find? fun entry => entry.1 = key).map Prod.snd

def isEmpty : Bool :=
  store.entries.isEmpty

variable (key : K)

/-- `Exists`. -/
def has : Bool :=
  (store.read key).isSome

def write (value : V) : OrderedStore K V where
  entries := (store.entries.filter fun entry => entry.1 < key) ++
    (key, value) :: store.entries.filter fun entry => key < entry.1
  sorted := by
    rw [pairwise_append, pairwise_cons]
    refine ⟨store.sorted.filter _, ⟨?_, store.sorted.filter _⟩, ?_⟩
    · intro entry member
      exact of_decide_eq_true (mem_filter.mp member).2
    intro lower below entry member
    have less : lower.1 < key := of_decide_eq_true (mem_filter.mp below).2
    rcases mem_cons.mp member with same | above
    · rw [same]
      exact less
    · exact lt_trans less (of_decide_eq_true (mem_filter.mp above).2)

def erase : OrderedStore K V where
  entries := store.entries.filter fun entry => entry.1 ≠ key
  sorted := store.sorted.filter _

def applyOp : BatchOp K V -> OrderedStore K V
  | .write key value => store.write key value
  | .erase key => store.erase key

def writeBatch (batch : List (BatchOp K V)) : OrderedStore K V :=
  batch.foldl applyOp store

/-- `Seek`: the entries that a cursor passes from a key on. -/
def seek (start : K) : List (K × V) :=
  store.entries.filter fun entry => start <= entry.1

theorem mem_entries_iff (value : V) :
    (key, value) ∈ store.entries <-> store.read key = some value := by
  rcases store with ⟨entries, sorted⟩
  change _ <-> (entries.find? fun entry => entry.1 = key).map Prod.snd = some value
  induction entries with
  | nil => simp
  | cons head _ ih =>
    have parts := pairwise_cons.mp sorted
    by_cases same : head.1 = key
    · rw [find?_cons_of_pos (by simpa using same)]
      constructor
      · intro member
        rcases mem_cons.mp member with first | later
        · rw [<- first]
          rfl
        · exact absurd same (ne_of_lt (parts.1 _ later))
      · intro answered
        have head_eq : (key, value) = head := Prod.ext same.symm (Option.some.inj answered).symm
        exact mem_cons.mpr (.inl head_eq)
    · rw [find?_cons_of_neg (by simpa using same), <- ih parts.2]
      constructor
      · intro member
        rcases mem_cons.mp member with first | later
        · exact absurd (congrArg Prod.fst first).symm same
        · exact later
      · exact mem_cons_of_mem head

theorem mem_seek_iff (start key : K) (value : V) :
    (key, value) ∈ store.seek start <-> start <= key /\ store.read key = some value := by
  rw [seek, mem_filter, mem_entries_iff, decide_eq_true_eq]
  exact and_comm

@[simp] theorem read_empty : (empty : OrderedStore K V).read key = none :=
  rfl

theorem read_of_isEmpty {store : OrderedStore K V} (empty : store.isEmpty = true) (key : K) :
    store.read key = none := by
  rw [read, isEmpty_iff.mp empty]
  rfl

theorem read_congr {first second : OrderedStore K V} {key : K}
    (same : ∀ value, (key, value) ∈ first.entries <-> (key, value) ∈ second.entries) :
    first.read key = second.read key := by
  cases answer : second.read key with
  | some value =>
    exact (mem_entries_iff _ _ _).mp ((same value).mpr ((mem_entries_iff _ _ _).mpr answer))
  | none =>
    cases other : first.read key with
    | none => rfl
    | some value =>
      have answered := (mem_entries_iff _ _ _).mp ((same value).mp ((mem_entries_iff _ _ _).mpr other))
      rw [answer] at answered
      cases answered

theorem read_applyOp (op : BatchOp K V) : (store.applyOp op).read = op.apply store.read := by
  funext key
  by_cases same : key = op.key
  · subst same
    rw [BatchOp.apply_key]
    cases op with
    | write key value =>
      exact (mem_entries_iff _ _ _).mp (mem_append_right _ (.head _))
    | erase key =>
      cases answer : (store.erase key).read key with
      | none => exact answer
      | some value =>
        have member := mem_filter.mp ((mem_entries_iff _ _ _).mpr answer)
        exact absurd rfl (of_decide_eq_true member.2)
  · rw [BatchOp.apply_of_ne store.read op same]
    apply read_congr
    intro value
    cases op with
    | write written _ =>
      change (key, value) ∈ _ ++ _ :: _ <-> _
      have different : key ≠ written := same
      simp only [mem_append, mem_cons, mem_filter, Prod.mk.injEq, different, false_and,
        false_or, decide_eq_true_eq, <- and_or_left]
      exact ⟨And.left, fun member => ⟨member, lt_or_gt_of_ne different⟩⟩
    | erase erased =>
      have different : key ≠ erased := same
      change (key, value) ∈ filter _ _ <-> _
      rw [mem_filter]
      exact ⟨And.left, fun member => ⟨member, decide_eq_true different⟩⟩

theorem read_writeBatch (batch : List (BatchOp K V)) :
    (store.writeBatch batch).read = Library.writeBatch store.read batch := by
  induction batch generalizing store with
  | nil => rfl
  | cons op _ ih =>
    rw [writeBatch_cons, <- read_applyOp]
    exact ih (store.applyOp op)

/-- A cursor that moves on while a test holds passes an entry if the test holds up to it. -/
theorem mem_takeWhile_seek {store : OrderedStore K V} {start key : K} {value : V}
    {test : K × V -> Bool} (above : start <= key) (stored : store.read key = some value)
    (holds : test (key, value) = true)
    (before : ∀ lower other, start <= lower -> lower < key -> store.read lower = some other ->
      test (lower, other) = true) : (key, value) ∈ (store.seek start).takeWhile test := by
  have member := (mem_seek_iff store start key value).mpr ⟨above, stored⟩
  have passed : ∀ entry ∈ store.seek start, entry.1 < key -> test entry = true := by
    intro entry listed less
    have parts := (mem_seek_iff store start entry.1 entry.2).mp listed
    exact before entry.1 entry.2 parts.1 less parts.2
  have sorted : (store.seek start).Pairwise fun first second => first.1 < second.1 :=
    store.sorted.filter _
  revert member passed sorted
  generalize store.seek start = entries
  intro member passed sorted
  induction entries with
  | nil => cases member
  | cons head _ ih =>
    have parts := pairwise_cons.mp sorted
    rcases mem_cons.mp member with first | later
    · rw [<- first, takeWhile_cons_of_pos holds]
      exact (.head _)
    · rw [takeWhile_cons_of_pos (passed head (.head _) (parts.1 _ later))]
      exact mem_cons_of_mem head (ih later (forall_mem_cons.mp passed).2 parts.2)

theorem not_lt_replicate_zero {entries : List Nat} {count : Nat} (long : count <= entries.length) :
    ¬ entries < replicate count 0 := by
  induction count generalizing entries with
  | zero => exact not_lt_nil entries
  | succ count ih =>
    cases entries with
    | nil => exact absurd long (Nat.not_succ_le_zero count)
    | cons head _ =>
      rw [replicate_succ, cons_lt_cons_iff, not_or, not_and]
      exact ⟨Nat.not_lt_zero head, fun _ => ih (Nat.le_of_succ_le_succ long)⟩

/-- Between keys that start alike there are only keys that start alike. -/
theorem exists_append_of_between {front low high middle : List Nat}
    (above : ¬ middle < front ++ low) (below : middle < front ++ high) :
    ∃ tail, middle = front ++ tail := by
  induction front generalizing middle with
  | nil => exact ⟨middle, rfl⟩
  | cons head rest ih =>
    cases middle with
    | nil => exact absurd (nil_lt_cons _ _) above
    | cons first others =>
      rw [cons_append, cons_lt_cons_iff] at above below
      rw [not_or, not_and] at above
      have same : first = head := by
        rcases below with less | ⟨same, _⟩
        · exact absurd less above.1
        · exact same
      have upper : others < rest ++ high := by
        rcases below with less | ⟨_, less⟩
        · exact absurd less above.1
        · exact less
      rcases ih (above.2 same) upper with ⟨tail, equal⟩
      exact ⟨tail, by rw [same, equal]; rfl⟩

end OrderedStore
end StakeCubeCoin.Library
