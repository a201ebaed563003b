import Mathlib.Data.List.Perm.Basic

namespace StakeCubeCoin.Library

open List

/-!
# Ordered maps

A map that is passed through in the order of its keys is kept as the list of its entries.
Putting an entry into it leaves the map alone if the key is there.  Entries with different
keys all end up in the map.
-/

variable {β : Type}

def emplace (map : List (Nat × β)) (item : Nat × β) : List (Nat × β) :=
  match map with
  | [] => [item]
  | entry :: rest =>
    if item.1 < entry.1 then item :: entry :: rest
    else if item.1 = entry.1 then entry :: rest
    else entry :: emplace rest item

/-- A map with the given entries, put into it one after another. -/
def emplaceAll (items : List (Nat × β)) : List (Nat × β) :=
  items.foldl emplace []

variable {map : List (Nat × β)} {item : Nat × β}

theorem emplace_perm (fresh : item.1 ∉ map.map Prod.fst) :
    (emplace map item).Perm (item :: map) := by
  induction map with
  | nil => exact List.Perm.refl _
  | cons entry rest ih =>
    rw [map_cons, mem_cons, not_or] at fresh
    unfold emplace
    split
    · exact List.Perm.refl _
    · rw [if_neg fresh.1]
      exact ((ih fresh.2).cons entry).trans (List.Perm.swap item entry rest)

theorem foldl_emplace_perm (items : List (Nat × β)) :
    ∀ {map : List (Nat × β)}, ((items ++ map).map Prod.fst).Nodup ->
      (items.foldl emplace map).Perm (items ++ map) := by
  induction items with
  | nil =>
    intro map _
    exact List.Perm.refl map
  | cons item rest ih =>
    intro map distinct
    rw [cons_append, map_cons, nodup_cons] at distinct
    have fresh : item.1 ∉ map.map Prod.fst := by
      intro member
      exact distinct.1 (by rw [map_append]; exact mem_append_right _ member)
    have moved : (rest ++ emplace map item).Perm (item :: (rest ++ map)) :=
      ((emplace_perm fresh).append_left rest).trans perm_middle
    have stillDistinct : ((rest ++ emplace map item).map Prod.fst).Nodup := by
      rw [(moved.map Prod.fst).nodup_iff, map_cons, nodup_cons]
      exact distinct
    exact (ih stillDistinct).trans moved

/-- Entries with different keys all end up in the map. -/
theorem emplaceAll_perm {items : List (Nat × β)} (distinct : (items.map Prod.fst).Nodup) :
    (emplaceAll items).Perm items := by
  have all := @foldl_emplace_perm β items [] (by rw [append_nil]; exact distinct)
  rwa [append_nil] at all

/-! ## The order of the entries -/

def Increasing (map : List (Nat × β)) : Prop :=
  map.Pairwise fun first second => first.1 < second.1

theorem mem_of_mem_emplace {entry : Nat × β}
    (member : entry ∈ emplace map item) : entry = item \/ entry ∈ map := by
  induction map with
  | nil => exact .inl (mem_singleton.mp member)
  | cons first _ ih =>
    unfold emplace at member
    split at member
    · exact mem_cons.mp member
    split at member
    · exact .inr member
    · rcases mem_cons.mp member with same | later
      · exact .inr (same ▸ (.head _))
      · exact (ih later).imp_right (mem_cons_of_mem first)

theorem Increasing.emplace (increasing : Increasing map) (item : Nat × β) :
    Increasing (emplace map item) := by
  induction map with
  | nil => exact pairwise_singleton _ item
  | cons _ _ ih =>
    have parts := pairwise_cons.mp increasing
    unfold Library.emplace
    split
    · next less =>
      refine pairwise_cons.mpr ⟨?_, increasing⟩
      intro entry member
      rcases mem_cons.mp member with same | later
      · rw [same]
        exact less
      · exact Nat.lt_trans less (parts.1 entry later)
    split
    · exact increasing
    next _ _ =>
    refine pairwise_cons.mpr ⟨?_, ih parts.2⟩
    intro entry member
    rcases mem_of_mem_emplace member with same | old
    · rw [same]
      omega
    · exact parts.1 entry old

theorem increasing_emplaceAll (items : List (Nat × β)) : Increasing (emplaceAll items) := by
  have each : ∀ map : List (Nat × β), Increasing map -> Increasing (items.foldl emplace map) := by
    induction items with
    | nil =>
      intro map increasing
      exact increasing
    | cons item _ ih =>
      intro map increasing
      exact ih _ (increasing.emplace item)
  exact each [] List.Pairwise.nil

theorem emplace_last (highest : ∀ entry ∈ map, entry.1 < item.1) :
    emplace map item = map ++ [item] := by
  induction map with
  | nil => rfl
  | cons first _ ih =>
    have above := highest first (.head _)
    unfold emplace
    rw [if_neg (by omega), if_neg (by omega), ih (forall_mem_cons.mp highest).2]
    rfl

/-- A map that is written out and put together again is the same. -/
theorem emplaceAll_of_increasing {items : List (Nat × β)} (increasing : Increasing items) :
    emplaceAll items = items := by
  have each : ∀ map : List (Nat × β), Increasing (map ++ items) ->
    items.foldl emplace map = map ++ items := by
    clear increasing
    induction items with
    | nil =>
      intro map _
      rw [append_nil]
      rfl
    | cons item rest ih =>
      intro map ordered
      have highest : ∀ entry ∈ map, entry.1 < item.1 := fun entry member =>
        (pairwise_append.mp ordered).2.2 entry member item (.head _)
      have whole : map ++ item :: rest = map ++ [item] ++ rest := by simp
      rw [foldl_cons, emplace_last highest, whole]
      exact ih (map ++ [item]) (whole ▸ ordered)
  exact each [] increasing

end StakeCubeCoin.Library
