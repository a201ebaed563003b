import Mathlib.Logic.Function.Basic
import Mathlib.Logic.Relation

namespace StakeCubeCoin.Library
namespace Roster

open Function

/-!
# Rosters of members with exclusive properties

A roster gives the member under a key, if there is one.  Members hold properties, and no
property is held by two of them.  A roster changes by members that leave, join or alter.

Two rosters are often known only by their difference: who left, who joined and how those
who stayed were altered.  Going from one to the other in this order meets only rosters with
exclusive properties exactly because no member that stays hands a property over to another.
What a sequence of changes must respect for this is stated for a single change.
-/

variable {K V P : Type} (holds : V -> P -> Prop)

def Exclusive (roster : K -> Option V) : Prop :=
  ∀ property first second one other, roster first = some one -> roster second = some other ->
    holds one property -> holds other property -> first = second

/-- Whoever gave a property to another member has left.  A property can thus be freed and taken
within one change of the roster, but never passes between two members that stay. -/
def NoHandover (old new : K -> Option V) : Prop :=
  ∀ property taker giver member former, new taker = some member -> old giver = some former ->
    holds member property -> holds former property -> taker ≠ giver -> new giver = none

/-- Everybody who leaves has left, and everybody else is as in the old or as in the new
roster. -/
def OnTheWay (old new middle : K -> Option V) : Prop :=
  ∀ key, middle key = new key \/ (middle key = old key /\ new key ≠ none)

variable {holds}

/-- Without handovers, properties are exclusive all the way. -/
theorem Exclusive.onTheWay {old new middle : K -> Option V} (oldExclusive : Exclusive holds old)
    (newExclusive : Exclusive holds new) (noHandover : NoHandover holds old new)
    (onTheWay : OnTheWay old new middle) : Exclusive holds middle := by
  have mixed : ∀ property taker giver member former, new taker = some member ->
    old giver = some former -> new giver ≠ none -> holds member property ->
    holds former property -> taker = giver := by
    intro property taker giver member former found foundOld stays holdsNew holdsOld
    by_cases same : taker = giver
    · exact same
    · exact absurd (noHandover property taker giver member former found foundOld holdsNew holdsOld
        same) stays
  intro property first second one other foundFirst foundSecond holdsFirst holdsSecond
  rcases onTheWay first with firstNew | ⟨firstOld, firstStays⟩
  · rcases onTheWay second with secondNew | ⟨secondOld, secondStays⟩
    · exact newExclusive property first second one other (firstNew.symm.trans foundFirst)
        (secondNew.symm.trans foundSecond) holdsFirst holdsSecond
    · exact mixed property first second one other (firstNew.symm.trans foundFirst)
        (secondOld.symm.trans foundSecond) secondStays holdsFirst holdsSecond
  · rcases onTheWay second with secondNew | ⟨secondOld, secondStays⟩
    · exact (mixed property second first other one (secondNew.symm.trans foundSecond)
        (firstOld.symm.trans foundFirst) firstStays holdsSecond holdsFirst).symm
    · exact oldExclusive property first second one other (firstOld.symm.trans foundFirst)
        (secondOld.symm.trans foundSecond) holdsFirst holdsSecond

/-- A roster with exclusive properties hands nothing over to itself. -/
theorem Exclusive.noHandover {roster : K -> Option V} (exclusive : Exclusive holds roster) :
    NoHandover holds roster roster := by
  intro property taker giver member former found foundOld holdsNew holdsOld different
  exact absurd (exclusive property taker giver member former found foundOld holdsNew holdsOld) different

variable [DecidableEq K]

/-- Who is found after a change at one key was put there or was there before. -/
theorem found_of_update {roster : K -> Option V} {key other : K} {value : Option V} {member : V}
    (found : Function.update roster key value other = some member) :
    other = key /\ value = some member \/ roster other = some member := by
  by_cases same : other = key
  · rw [same, update_self] at found
    exact .inl ⟨same, found⟩
  · rw [update_of_ne same] at found
    exact .inr found

theorem OnTheWay.update {old new middle : K -> Option V} (onTheWay : OnTheWay old new middle)
    (key : K) :
    OnTheWay old new (Function.update middle key (new key)) := by
  intro other
  by_cases same : other = key
  · rw [same, update_self]
    exact .inl rfl
  · rw [update_of_ne same]
    exact onTheWay other

variable (holds) (same : V -> V -> Prop)

/-- A change that hands nothing over, as seen from the roster at the beginning.  Somebody who joins
was not there, and what is acquired was held by nobody else who is still there. -/
inductive Change (old : K -> Option V) : (K -> Option V) -> (K -> Option V) -> Prop
  | leave (roster : K -> Option V) (key : K) : Change old roster (Function.update roster key none)
  | join (roster : K -> Option V) (key : K) (member : V) (unknown : old key = none)
    (free : ∀ property giver former, holds member property -> old giver = some former ->
      holds former property -> roster giver = none) :
    Change old roster (Function.update roster key (some member))
  | alter (roster : K -> Option V) (key : K) (member altered : V) (here : roster key = some member)
    (identity : same member altered)
    (own : ∀ property giver former, holds altered property ->
      holds member property \/ (old giver = some former -> holds former property -> giver = key)) :
    Change old roster (Function.update roster key (some altered))

/-- Members that were there at the beginning are still the same. -/
def SameIdentity (old roster : K -> Option V) : Prop :=
  ∀ key former member, old key = some former -> roster key = some member -> same former member

variable {holds same} {old roster after : K -> Option V}

omit [DecidableEq K] in
theorem sameIdentity_refl (reflexive : ∀ member, same member member) :
    SameIdentity same old old := by
  intro key former member foundOld found
  rw [foundOld, Option.some.injEq] at found
  rw [found]
  exact reflexive member

theorem NoHandover.change (noHandover : NoHandover holds old roster)
    (change : Change holds same old roster after) : NoHandover holds old after := by
  intro property taker giver member former found foundOld holdsNew holdsOld different
  cases change with
  | leave key =>
    rcases found_of_update found with ⟨_, impossible⟩ | found
    · cases impossible
    · have gone := noHandover property taker giver member former found foundOld holdsNew holdsOld different
      by_cases also : giver = key
      · rw [also, update_self]
      · rw [update_of_ne also, gone]
  | join key _ unknown free =>
    -- The giver was there at the beginning, so it is not the one who joins.
    have otherKey : giver ≠ key := by
      intro equal
      rw [equal, unknown] at foundOld
      cases foundOld
    rw [update_of_ne otherKey]
    rcases found_of_update found with ⟨_, same⟩ | found
    · cases same
      exact free property giver former holdsNew foundOld holdsOld
    · exact noHandover property taker giver member former found foundOld holdsNew holdsOld different
  | alter key before altered here _ own =>
    have stays : roster giver = none -> Function.update roster key (some altered) giver = none := by
      intro gone
      rw [update_of_ne, gone]
      intro equal
      rw [equal, here] at gone
      cases gone
    rcases found_of_update found with ⟨alters, same⟩ | found
    · cases same
      subst alters
      rcases own property giver former holdsNew with already | onlyOwner
      · exact stays (noHandover property taker giver before former here foundOld already holdsOld different)
      · exact absurd (onlyOwner foundOld holdsOld).symm different
    · exact stays (noHandover property taker giver member former found foundOld holdsNew holdsOld different)

theorem SameIdentity.change (transitive : ∀ first second third, same first second ->
    same second third -> same first third) (kept : SameIdentity same old roster)
    (change : Change holds same old roster after) : SameIdentity same old after := by
  intro key former member foundOld found
  cases change with
  | leave changed =>
    rcases found_of_update found with ⟨_, impossible⟩ | found
    · cases impossible
    · exact kept key former member foundOld found
  | join changed _ unknown _ =>
    rcases found_of_update found with ⟨equal, _⟩ | found
    · rw [equal, unknown] at foundOld
      cases foundOld
    · exact kept key former member foundOld found
  | alter changed before _ here identity _ =>
    rcases found_of_update found with ⟨equal, same⟩ | found
    · cases same
      subst equal
      exact transitive former before member (kept key former before foundOld here) identity
    · exact kept key former member foundOld found

end Roster
end StakeCubeCoin.Library
