import Mathlib.Data.List.Basic

namespace StakeCubeCoin.Library
namespace EntryList

/-!
# Maps as lists of entries

A map that is only looked up, filled and passed through as a whole is kept as the list of its
entries, in any order.  The first entry of a key is the one that counts.
-/

variable {Key Value : Type} [DecidableEq Key]

def find : List (Key × Value) -> Key -> Option Value
  | [], _ => none
  | entry :: rest, key => if entry.1 = key then some entry.2 else find rest key

def emplace : List (Key × Value) -> Key -> Value -> List (Key × Value)
  | [], key, value => [(key, value)]
  | entry :: rest, key, value =>
    if entry.1 = key then entry :: rest else entry :: emplace rest key value

variable (entries : List (Key × Value)) (key : Key)

def modify (change : Value -> Value) : List (Key × Value) :=
  entries.map fun entry => if entry.1 = key then (entry.1, change entry.2) else entry

theorem find_emplace (other : Key) (value : Value) : find (emplace entries key value) other =
      if other = key then some ((find entries key).getD value) else find entries other := by
  induction entries with
  | nil =>
    by_cases same : other = key
    · simp [emplace, find, same]
    · simp [emplace, find, same, Ne.symm same]
  | cons entry _ ih =>
    by_cases atKey : entry.1 = key
    · by_cases same : other = key
      · simp [emplace, find, atKey, same]
      · simp [emplace, find, atKey, same, Ne.symm same]
    · by_cases atOther : entry.1 = other
      · have different : other ≠ key := fun same => atKey (atOther.trans same)
        simp [emplace, find, atOther, different]
      · simp [emplace, find, atKey, atOther, ih]

theorem find_modify (other : Key) (change : Value -> Value) :
    find (modify entries key change) other =
      if other = key then (find entries key).map change else find entries other := by
  induction entries with
  | nil => simp [modify, find]
  | cons entry rest ih =>
    have unfolded : modify (entry :: rest) key change =
      (if entry.1 = key then (entry.1, change entry.2) else entry) :: modify rest key change := rfl
    rw [unfolded]
    by_cases atKey : entry.1 = key
    · by_cases same : other = key
      · simp [find, atKey, same]
      · simp [find, atKey, same, Ne.symm same, ih]
    · by_cases atOther : entry.1 = other
      · have different : other ≠ key := fun same => atKey (atOther.trans same)
        simp [find, atOther, different]
      · simp [find, atKey, atOther, ih]

variable {counted : Key × Value -> Bool}

/-- An entry that does not count is put into the map without any effect on the count. -/
theorem countP_emplace (value : Value) (uncounted : counted (key, value) = false) :
    (emplace entries key value).countP counted = entries.countP counted := by
  induction entries with
  | nil => simp [emplace, uncounted]
  | cons _ _ ih =>
    unfold emplace
    split
    · rfl
    · rw [List.countP_cons, List.countP_cons, ih]

theorem countP_modify (change : Value -> Value)
    (same : ∀ value, counted (key, change value) = counted (key, value)) :
    (modify entries key change).countP counted = entries.countP counted := by
  unfold modify
  rw [List.countP_map]
  apply List.countP_congr
  intro entry _
  rcases entry with ⟨entryKey, value⟩
  by_cases atKey : entryKey = key
  · subst atKey
    simp [same value]
  · simp [atKey]

end EntryList
end StakeCubeCoin.Library
