import Mathlib.Data.List.AList

namespace StakeCubeCoin.Library
namespace Registry

open Option Function List AList

/-!
# Registries of owned keys

A registry records, for each key that is in use, its owner and how often the
owner has claimed it.  Claiming a key of another owner fails, and so does
releasing a key one does not own.

A list of claims and releases by one owner is performed in order and fails as a
whole if one of them fails.  The main result reads such a list key by key: when
it mentions each key at most once, and claims no key that its owner already has,
the registry stays without multiple claims, and the new owner of each key can be
read off the list.
-/

variable {Key Owner : Type} [DecidableEq Key] [DecidableEq Owner]

/-- Keys in use, with owner and number of claims. -/
abbrev Claims (Key Owner : Type) := AList (fun _ : Key => Owner × Nat)

variable (registry : Claims Key Owner)

/-- Claim a key once more, unless another owner has it. -/
def claim (owner : Owner) (key : Key) : Option (Claims Key Owner) :=
  match registry.lookup key with
  | none => some (registry.insert key (owner, 1))
  | some entry =>
    if entry.1 = owner then some (registry.insert key (owner, entry.2 + 1)) else none

def release (owner : Owner) (key : Key) : Option (Claims Key Owner) :=
  match registry.lookup key with
  | none => none
  | some entry =>
    if entry.1 = owner then
      if entry.2 = 1 then some (registry.erase key)
      else some (registry.insert key (owner, entry.2 - 1))
    else none

def owner (key : Key) : Option Owner :=
  (registry.lookup key).map Prod.fst

def Single : Prop :=
  ∀ key entry, registry.lookup key = some entry -> entry.2 = 1

omit [DecidableEq Owner] in
theorem single_empty : Single (∅ : Claims Key Owner) := by
  intro key entry found
  rw [lookup_empty] at found
  cases found

omit [DecidableEq Owner] in
theorem owner_empty (key : Key) : owner (∅ : Claims Key Owner) key = none := by
  rw [owner, lookup_empty, map_none]

variable {registry : Claims Key Owner}

omit [DecidableEq Owner] in
theorem lookup_eq_some_iff (single : Single registry) (key : Key) (entry : Owner × Nat) :
    registry.lookup key = some entry <-> owner registry key = some entry.1 /\ entry.2 = 1 := by
  constructor
  · intro found
    exact ⟨by rw [owner, found, map_some], single key entry found⟩
  intro described
  rcases described with ⟨owned, once⟩
  rw [owner, map_eq_some_iff] at owned
  rcases owned with ⟨stored, found, same⟩
  have storedOnce := single key stored found
  rw [found]
  congr 1
  exact Prod.ext same (storedOnce.trans once.symm)

variable {next : Claims Key Owner} {claimant : Owner}

/-! ## Lists of claims and releases -/

inductive Op (Key : Type) where
  | claim (key : Key)
  | release (key : Key)

def Op.key : Op Key -> Key
  | .claim key => key
  | .release key => key

def Op.ownerAfter (claimant : Owner) : Op Key -> Option Owner
  | .claim _ => some claimant
  | .release _ => none

def Op.ownerBefore (claimant : Owner) : Op Key -> Option Owner
  | .claim _ => none
  | .release _ => some claimant

/-- The registry after an operation that succeeds, without multiple claims. -/
def Op.apply (claimant : Owner) (registry : Claims Key Owner) : Op Key -> Claims Key Owner
  | .claim key => registry.insert key (claimant, 1)
  | .release key => registry.erase key

omit [DecidableEq Owner] in
theorem lookup_apply (op : Op Key) (key : Key) : (op.apply claimant registry).lookup key =
    if key = op.key then (op.ownerAfter claimant).map fun owner => (owner, 1)
    else registry.lookup key := by
  split
  · next same =>
    subst same
    cases op <;> simp [Op.apply, Op.key, Op.ownerAfter]
  · next other => cases op <;> simp_all [Op.apply, Op.key]

omit [DecidableEq Owner] in
theorem owner_apply (op : Op Key) :
    owner (op.apply claimant registry) = Function.update (owner registry) op.key (op.ownerAfter claimant) := by
  funext key
  rw [owner, lookup_apply, update_apply]
  split
  · cases op <;> rfl
  · rfl

omit [DecidableEq Owner] in
theorem Single.apply (single : Single registry) (op : Op Key) :
    Single (op.apply claimant registry) := by
  intro key entry found
  rw [lookup_apply] at found
  split at found
  · rcases map_eq_some_iff.mp found with ⟨_, _, rfl⟩
    rfl
  · exact single key entry found

/-- Perform a list of operations for one owner. -/
def perform (claimant : Owner) : Claims Key Owner -> List (Op Key) -> Option (Claims Key Owner)
  | registry, [] => some registry
  | registry, .claim key :: rest =>
    (claim registry claimant key).bind fun next => perform claimant next rest
  | registry, .release key :: rest =>
    (release registry claimant key).bind fun next => perform claimant next rest

theorem perform_append (claimant : Owner) (first second : List (Op Key)) :
    ∀ registry : Claims Key Owner,
      perform claimant registry (first ++ second) =
        (perform claimant registry first).bind fun next => perform claimant next second := by
  induction first with
  | nil =>
    intro registry
    rfl
  | cons op _ ih =>
    intro registry
    cases op <;> simp only [cons_append, perform, ih, bind_assoc]

/-- What a successful list of operations has done, key by key.  Keys that no operation names have
the owner they had. -/
structure Performed (claimant : Owner) (registry next : Claims Key Owner) (ops : List (Op Key)) :
    Prop where
  single : Single next
  free_before : ∀ key, Op.claim key ∈ ops -> owner registry key = none
  owned_before : ∀ key, Op.release key ∈ ops -> owner registry key = some claimant
  owner_of_mem : ∀ op ∈ ops, owner next op.key = op.ownerAfter claimant
  owner_of_not_mem : ∀ key, (∀ op ∈ ops, op.key ≠ key) -> owner next key = owner registry key

/-- Without multiple claims, an operation succeeds if its key has the right owner before. -/
theorem perform_cons_iff (single : Single registry) {op : Op Key} {rest : List (Op Key)}
    (notYet : op = .claim op.key -> owner registry op.key ≠ some claimant) :
    perform claimant registry (op :: rest) = some next <->
      owner registry op.key = op.ownerBefore claimant /\
        perform claimant (op.apply claimant registry) rest = some next := by
  cases op with
  | claim key =>
    have foreign := notYet rfl
    cases found : registry.lookup key with
    | none => simp [perform, claim, owner, found, Op.key, Op.ownerBefore, Op.apply]
    | some entry =>
      rw [owner, Op.key, found, map_some, ne_eq, Option.some.injEq] at foreign
      simp [perform, claim, owner, found, foreign, Op.key, Op.ownerBefore]
  | release key =>
    cases found : registry.lookup key with
    | none => simp [perform, release, owner, found, Op.key, Op.ownerBefore]
    | some entry =>
      by_cases same : entry.1 = claimant <;>
        simp [perform, release, owner, found, same, single key entry found, Op.key, Op.ownerBefore, Op.apply]

theorem perform_spec (ops : List (Op Key)) {registry next : Claims Key Owner} :
    Single registry -> (ops.map Op.key).Nodup ->
      (∀ key, Op.claim key ∈ ops -> owner registry key ≠ some claimant) ->
      perform claimant registry ops = some next -> Performed claimant registry next ops := by
  induction ops generalizing registry next with
  | nil =>
    intro single _ _ performed
    cases performed
    exact ⟨single, by simp, by simp, by simp, fun _ _ => rfl⟩
  | cons op rest ih =>
    intro single distinct notYet performed
    rw [map_cons, nodup_cons] at distinct
    rcases (perform_cons_iff single fun same => notYet op.key (same ▸ .head _)).mp performed with
      ⟨before, finished⟩
    have later : ∀ other ∈ rest, other.key ≠ op.key :=
      fun other member same => distinct.1 (mem_map.mpr ⟨other, member, same⟩)
    have kept : ∀ key ≠ op.key, owner (op.apply claimant registry) key = owner registry key := by
      intro key different
      rw [owner_apply, update_of_ne different]
    have done := ih (single.apply op) distinct.2 (by
      intro key member
      rw [kept key (later _ member)]
      exact notYet key (.tail _ member)) finished
    refine ⟨done.single, ?_, ?_, ?_, ?_⟩
    · intro key member
      rcases mem_cons.mp member with rfl | after
      · exact before
      · rw [<- kept key (later _ after)]
        exact done.free_before key after
    · intro key member
      rcases mem_cons.mp member with rfl | after
      · exact before
      · rw [<- kept key (later _ after)]
        exact done.owned_before key after
    · intro other member
      rcases mem_cons.mp member with rfl | after
      · rw [done.owner_of_not_mem other.key later, owner_apply, update_self]
      · exact done.owner_of_mem other after
    · intro key untouched
      rw [done.owner_of_not_mem key (forall_mem_cons.mp untouched).2]
      exact kept key (Ne.symm (untouched op (.head _)))

/-- Claims of free keys and releases of keys that are owned can be performed, if no key is
concerned twice. -/
theorem exists_perform (ops : List (Op Key)) {registry : Claims Key Owner} :
    Single registry -> (ops.map Op.key).Nodup ->
      (∀ key, Op.claim key ∈ ops -> owner registry key = none) ->
      (∀ key, Op.release key ∈ ops -> owner registry key = some claimant) ->
      ∃ next, perform claimant registry ops = some next := by
  induction ops generalizing registry with
  | nil =>
    intro _ _ _ _
    exact ⟨registry, rfl⟩
  | cons op rest ih =>
    intro single distinct free owned
    rw [map_cons, nodup_cons] at distinct
    have kept : ∀ other ∈ rest,
        owner (op.apply claimant registry) other.key = owner registry other.key := by
      intro other member
      rw [owner_apply, update_of_ne fun same => distinct.1 (mem_map.mpr ⟨other, member, same⟩)]
    have before : owner registry op.key = op.ownerBefore claimant := by
      cases op with
      | claim key => exact free key (.head _)
      | release key => exact owned key (.head _)
    rcases ih (single.apply op) distinct.2
      (fun key member => (kept _ member).trans (free key (.tail _ member)))
      (fun key member => (kept _ member).trans (owned key (.tail _ member))) with ⟨next, performed⟩
    refine ⟨next, (perform_cons_iff single fun same => ?_).mpr ⟨before, performed⟩⟩
    rw [free op.key (same ▸ .head _)]
    simp

end Registry
end StakeCubeCoin.Library
