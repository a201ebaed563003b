import Mathlib.Algebra.BigOperators.Fin
import Mathlib.Data.List.Destutter

namespace StakeCubeCoin.Library
namespace Matching

open List

/-!
# Matching expected entries against a list

Ways to ask that a list contains the entries that are expected of it.  The strict one
gives every expected entry an entry of its own.  Two others are what simple loops
establish: a search for each entry on its own, and a scan in order that goes on *at* the
entry found last.  The scan finds exactly the lists in which the expected entries occur in
order once adjacent repetitions are merged.
-/

variable {A : Type}

/-! ## Entries of their own -/

/-- Every expected entry has an entry of the list of its own.  It is data, since it says which entry
is meant where several are equal. -/
structure Assignment (expected actual : List A) where
  toFun : Fin expected.length -> Fin actual.length
  injective : Function.Injective toFun
  get_toFun : ∀ index, actual.get (toFun index) = expected.get index

/-- An assignment exists exactly if the expected entries are a part of the list, with their
multiplicities. -/
theorem nonempty_assignment_iff [DecidableEq A] {expected actual : List A} :
    Nonempty (Assignment expected actual) <-> expected.Subperm actual := by
  constructor
  · rintro ⟨assignment⟩
    have listed : expected = ((finRange expected.length).map assignment.toFun).map actual.get := by
      rw [map_map]
      calc expected = (finRange expected.length).map expected.get := (map_get_finRange _).symm
        _ = _ := map_congr_left fun index _ => (assignment.get_toFun index).symm
    have different : ((finRange expected.length).map assignment.toFun).Nodup :=
      (nodup_finRange _).map assignment.injective
    have part : ((finRange expected.length).map assignment.toFun).Subperm
      (finRange actual.length) :=
      subperm_of_subset different fun index _ => mem_finRange index
    rcases part with ⟨reordered, perm, sublist⟩
    rw [listed]
    refine ⟨reordered.map actual.get, perm.map _, ?_⟩
    have mapped := sublist.map actual.get
    rwa [map_get_finRange] at mapped
  · intro part
    exact ⟨⟨part.idxInj, part.idxInj_injective, fun index => part.getElem_idxInj_eq_getElem⟩⟩

def Assignment.unassigned {expected actual : List A} (assignment : Assignment expected actual) :
    Finset (Fin actual.length) :=
  Finset.univ.filter fun index => ∀ entry, assignment.toFun entry ≠ index

/-- What the entries nothing is assigned to add up to. -/
theorem Assignment.sum_unassigned {expected actual : List A}
    (assignment : Assignment expected actual) (weight : A -> Int) :
    ∑ index ∈ assignment.unassigned, weight (actual.get index) =
      (actual.map weight).sum - (expected.map weight).sum := by
  have total : ∀ entries : List A, (entries.map weight).sum = ∑ index,
    weight (entries.get index) := by
    intro entries
    rw [<- sum_ofFn]
    conv_lhs => rw [<- ofFn_get entries]
    rw [map_ofFn]
    rfl
  have assigned : ∑ index, weight (expected.get index) =
    ∑ index ∈ Finset.univ.image assignment.toFun, weight (actual.get index) := by
    rw [Finset.sum_image fun first _ second _ same => assignment.injective same]
    exact Finset.sum_congr rfl fun index _ => by rw [assignment.get_toFun]
  have apart : assignment.unassigned = Finset.univ \ Finset.univ.image assignment.toFun := by
    ext index
    simp [unassigned]
  rw [total, total, assigned, apart]
  exact eq_sub_of_add_eq (Finset.sum_sdiff (Finset.subset_univ _))

/-! ## A scan in order -/

section

variable [DecidableEq A]

/-- Looks for the expected entries one after the other.  The search for the next one starts at
the entry found last. -/
def foundInOrder : List A -> List A -> Bool
  | [], _ => true
  | entry :: rest, actual =>
    match actual.dropWhile (· ≠ entry) with
    | [] => false
    | found :: after => foundInOrder rest (found :: after)

/-- The scan written with the index of the entry that is found. -/
theorem foundInOrder_cons (entry : A) (rest actual : List A) : foundInOrder (entry :: rest) actual =
      match actual.findIdx? (· = entry) with
      | none => false
      | some steps => foundInOrder rest (actual.drop steps) := by
  rw [foundInOrder]
  induction actual with
  | nil => rfl
  | cons head tail ih =>
    by_cases same : head = entry
    · simp [findIdx?_cons, same]
    rw [dropWhile_cons, if_pos (by simpa using same), ih, findIdx?_cons,
      if_neg (by simpa using same)]
    cases tail.findIdx? (· = entry) with
    | none => rfl
    | some steps => rfl

/-- A list that starts with an entry is in order in another one exactly if it is from the first
occurrence of the entry on. -/
theorem sublist_dropWhile_iff (entry : A) (rest actual : List A) :
    (entry :: rest).Sublist (actual.dropWhile (· ≠ entry)) <-> (entry :: rest).Sublist actual := by
  induction actual with
  | nil => rfl
  | cons head _ ih =>
    by_cases same : head = entry
    · simp only [dropWhile_cons, same, ne_eq, not_true_eq_false, decide_false,
        Bool.false_eq_true, if_false]
    rw [dropWhile_cons, if_pos (by simpa using same), ih]
    constructor
    · exact fun sublist => sublist.cons head
    · intro sublist
      cases sublist with
      | cons _ further => exact further
      | cons_cons _ _ => exact absurd rfl same

variable {entry : A} {actual : List A}

theorem dropWhile_eq_cons {found : A} {after : List A}
    (stopped : actual.dropWhile (· ≠ entry) = found :: after) : found = entry := by
  have holds := head?_dropWhile_not (fun other : A => decide (other ≠ entry)) actual
  rw [stopped] at holds
  simpa using holds

/-- Merging repetitions keeps the entry in front. -/
theorem exists_destutter'_eq_cons (entry : A) (rest : List A) :
    ∃ tail, rest.destutter' (· ≠ ·) entry = entry :: tail := by
  induction rest with
  | nil => exact ⟨[], rfl⟩
  | cons next rest ih =>
    by_cases same : entry = next
    · rw [destutter'_cons_neg _ (not_not_intro same)]
      exact ih
    · rw [destutter'_cons_pos _ same]
      exact ⟨_, rfl⟩

theorem mem_destutter'_of_mem {other : A} {rest : List A} (member : other ∈ entry :: rest) :
    other ∈ rest.destutter' (· ≠ ·) entry := by
  induction rest generalizing entry with
  | nil => exact member
  | cons next rest ih =>
    by_cases same : entry = next
    · subst same
      rw [destutter'_cons_neg _ (not_not_intro rfl)]
      refine ih ?_
      rcases mem_cons.mp member with first | later
      · exact first ▸ (.head _)
      · exact later
    · rw [destutter'_cons_pos _ same]
      rcases mem_cons.mp member with first | later
      · exact first ▸ (.head _)
      · exact mem_cons_of_mem _ (ih later)

/-- The scan finds exactly the entries that are in order once repetitions are merged. -/
theorem foundInOrder_cons_iff (entry : A) (rest actual : List A) :
    foundInOrder (entry :: rest) actual = true <-> (rest.destutter' (· ≠ ·) entry).Sublist actual := by
  induction rest generalizing entry actual with
  | nil =>
    rw [destutter'_nil, <- sublist_dropWhile_iff, foundInOrder]
    cases stopped : actual.dropWhile (· ≠ entry) with
    | nil => simp
    | cons found after =>
      rw [dropWhile_eq_cons stopped]
      simp [foundInOrder]
  | cons next rest ih =>
    rcases exists_destutter'_eq_cons entry (next :: rest) with ⟨_, merged⟩
    rw [merged, <- sublist_dropWhile_iff, foundInOrder]
    cases stopped : actual.dropWhile (· ≠ entry) with
    | nil => simp
    | cons found after =>
      rw [dropWhile_eq_cons stopped]
      rw [ih, <- merged]
      -- The next entry is the one the scan stands at, or it comes later.
      by_cases same : entry = next
      · subst same
        rw [destutter'_cons_neg _ (not_not_intro rfl)]
      rcases exists_destutter'_eq_cons next rest with ⟨_, later⟩
      rw [destutter'_cons_pos _ same, cons_sublist_cons, later]
      constructor
      · intro sublist
        cases sublist with
        | cons _ below => exact below
        | cons_cons _ _ => exact absurd rfl same
      · exact fun sublist => sublist.cons entry

/-- The scan finds exactly the lists in which the expected entries, adjacent repetitions
merged, occur in order. -/
theorem foundInOrder_iff (expected actual : List A) :
    foundInOrder expected actual = true <-> (expected.destutter (· ≠ ·)).Sublist actual := by
  cases expected with
  | nil => simp [foundInOrder]
  | cons entry rest => exact foundInOrder_cons_iff entry rest actual

/-! ## What the loops establish -/

variable {ordered others : List A}

/-- Entries found in order and others found one by one have entries of their own, unless two of them
that could share one are the same. -/
theorem subperm_append (inOrder : foundInOrder ordered actual = true)
    (present : ∀ entry ∈ others, entry ∈ actual) (adjacent : ordered.IsChain (· ≠ ·))
    (nodup : others.Nodup) (disjoint : ordered.Disjoint others) :
    (ordered ++ others).Subperm actual := by
  have sublist := (foundInOrder_iff ordered actual).mp inOrder
  rw [destutter_of_isChain _ _ adjacent] at sublist
  rw [subperm_ext_iff]
  intro entry _
  rw [count_append]
  by_cases other : entry ∈ others
  · have absent : ordered.count entry = 0 :=
      count_eq_zero_of_not_mem fun member => disjoint member other
    rw [absent, count_eq_one_of_mem nodup other]
    exact one_le_count_iff.mpr (present entry other)
  · rw [count_eq_zero_of_not_mem other]
    exact sublist.count_le entry

/-- The least entries that satisfy the scan and the search. -/
def leastFound (ordered others : List A) : List A :=
  ordered.destutter (· ≠ ·) ++ others.dedup.filter (· ∉ ordered)

theorem leastFound_subperm (inOrder : foundInOrder ordered actual = true)
    (present : ∀ entry ∈ others, entry ∈ actual) : (leastFound ordered others).Subperm actual := by
  have sublist := (foundInOrder_iff ordered actual).mp inOrder
  rw [subperm_ext_iff]
  intro entry _
  rw [leastFound, count_append]
  by_cases other : entry ∈ others.dedup.filter (· ∉ ordered)
  · have parts := mem_filter.mp other
    have absent : (ordered.destutter (· ≠ ·)).count entry = 0 :=
      count_eq_zero_of_not_mem fun member =>
        of_decide_eq_true parts.2 ((destutter_sublist _ ordered).mem member)
    rw [absent, count_eq_one_of_mem ((nodup_dedup others).filter _) other]
    exact one_le_count_iff.mpr (present entry (mem_dedup.mp parts.1))
  · rw [count_eq_zero_of_not_mem other]
    exact sublist.count_le entry

theorem mem_leastFound (member : entry ∈ others) : entry ∈ leastFound ordered others := by
  rw [leastFound, mem_append]
  by_cases listed : entry ∈ ordered
  · left
    cases ordered with
    | nil => cases listed
    | cons _ _ => exact mem_destutter'_of_mem listed
  · right
    exact mem_filter.mpr ⟨mem_dedup.mpr member, decide_eq_true listed⟩

theorem foundInOrder_leastFound (ordered others after : List A) :
    foundInOrder ordered (leastFound ordered others ++ after) = true := by
  rw [foundInOrder_iff, leastFound, append_assoc]
  exact sublist_append_left _ _

/-- Where two entries coincide, the least entries are fewer than expected. -/
theorem length_leastFound_lt
    (coincide : ¬ (ordered.IsChain (· ≠ ·) /\ others.Nodup /\ ordered.Disjoint others)) :
    (leastFound ordered others).length < (ordered ++ others).length := by
  by_contra fewer
  apply coincide
  have merged := destutter_sublist (· ≠ ·) ordered
  have once := dedup_sublist others
  have apart := filter_sublist (p := fun entry => decide (entry ∉ ordered)) (l := others.dedup)
  have mergedLength := merged.length_le
  have onceLength := once.length_le
  have apartLength := apart.length_le
  simp only [leastFound, length_append, not_lt] at fewer
  have sameOrdered := merged.eq_of_length (by omega)
  have sameOnce := once.eq_of_length (by omega)
  have sameApart := apart.eq_of_length (by omega)
  refine ⟨(destutter_eq_self_iff _ ordered).mp sameOrdered, dedup_eq_self.mp sameOnce, ?_⟩
  intro entry listed other
  have kept : entry ∈ others.dedup.filter fun entry => decide (entry ∉ ordered) := by
    rw [sameApart]
    exact mem_dedup.mpr other
  exact of_decide_eq_true (mem_filter.mp kept).2 listed

end
/-! ## In order, each with an entry of its own -/

variable {A B : Type} (accepts : A -> B -> Bool)

/-- Every expected entry has an accepted one of its own, in the same order.  A greedy scan finds
such a match whenever there is one. -/
def OrderedMatch (expected : List A) (actual : List B) : Prop :=
  ∃ position : Fin expected.length -> Fin actual.length, StrictMono position /\
    ∀ index, accepts (expected.get index) (actual.get (position index)) = true

/-- A scan that gives every entry to the first expected one left, if it is accepted, and ends when
too few are left.  The number counts the entries tried. -/
def scanOrdered : List A -> List B -> Bool × Nat
  | [], _ => (true, 0)
  | _ :: _, [] => (false, 0)
  | first :: expected, entry :: actual =>
    let left := if accepts first entry then expected else first :: expected
    if actual.length < left.length then (false, 1)
    else ((scanOrdered left actual).1, (scanOrdered left actual).2 + 1)

variable {accepts}

theorem orderedMatch_iff {expected : List A} {actual : List B} :
    OrderedMatch accepts expected actual <->
      ∃ chosen, chosen <+ actual /\ Forall₂ (fun first entry => accepts first entry = true) expected chosen := by
  constructor
  · rintro ⟨position, increasing, accepted⟩
    refine ⟨ofFn fun index => actual.get (position index), ?_, forall₂_iff_get.mpr ⟨by simp, ?_⟩⟩
    · refine sublist_iff_exists_fin_orderEmbedding_get_eq.mpr
        ⟨.ofStrictMono (fun index => position (index.cast length_ofFn)) fun _ _ less => increasing less, ?_⟩
      intro index
      rw [get_ofFn]
      rfl
    · intro index inside _
      rw [get_ofFn]
      exact accepted ⟨index, inside⟩
  · rintro ⟨chosen, sublist, accepted⟩
    rcases sublist_iff_exists_fin_orderEmbedding_get_eq.mp sublist with ⟨position, same⟩
    have size := accepted.length_eq
    refine ⟨fun index => position (index.cast size), fun _ _ less => position.strictMono less, fun index => ?_⟩
    rw [<- same]
    exact accepted.get index.2 (size ▸ index.2)

/-- The scan finds a matching if there is one, and tries no entry twice. -/
theorem scanOrdered_spec (expected : List A) (actual : List B) :
    ((scanOrdered accepts expected actual).1 = true <-> OrderedMatch accepts expected actual) /\
      (scanOrdered accepts expected actual).2 <= actual.length := by
  rw [orderedMatch_iff]
  induction actual generalizing expected with
  | nil =>
    cases expected with
    | nil => exact ⟨⟨fun _ => ⟨[], Sublist.refl _, .nil⟩, fun _ => rfl⟩, le_rfl⟩
    | cons first expected => simp [scanOrdered]
  | cons entry actual ih =>
    cases expected with
    | nil => exact ⟨⟨fun _ => ⟨[], nil_sublist _, .nil⟩, fun _ => rfl⟩, Nat.zero_le _⟩
    | cons first expected =>
      -- An entry that is accepted may as well be used at once.
      have step : (∃ chosen, chosen <+ entry :: actual /\
          Forall₂ (fun first entry => accepts first entry = true) (first :: expected) chosen) <->
        ∃ chosen, chosen <+ actual /\ Forall₂ (fun first entry => accepts first entry = true)
          (if accepts first entry then expected else first :: expected) chosen := by
        split
        · next accepted =>
          constructor
          · rintro ⟨_, sublist, _ | ⟨_, others⟩⟩
            exact ⟨_, sublist.of_cons_cons, others⟩
          · rintro ⟨chosen, sublist, others⟩
            exact ⟨entry :: chosen, sublist.cons_cons entry, .cons accepted others⟩
        · next refused =>
          constructor
          · rintro ⟨chosen, sublist, matched⟩
            cases sublist with
            | cons _ later => exact ⟨chosen, later, matched⟩
            | cons_cons _ later =>
              cases matched with
              | cons accepted _ => exact absurd accepted refused
          · rintro ⟨chosen, sublist, matched⟩
            exact ⟨chosen, sublist.cons entry, matched⟩
      rw [step, scanOrdered]
      generalize (if accepts first entry then expected else first :: expected) = left
      split
      · next short =>
        refine ⟨⟨nofun, ?_⟩, Nat.succ_pos _⟩
        rintro ⟨chosen, sublist, matched⟩
        have size := matched.length_eq
        have part := sublist.length_le
        omega
      · exact ⟨(ih left).1, Nat.succ_le_succ (ih left).2⟩

end Matching
end StakeCubeCoin.Library
