import Mathlib.Algebra.BigOperators.Group.Multiset.Basic
import Mathlib.Data.BitVec

namespace StakeCubeCoin.Library

open List

/-!
# Worker pools

Threads work on a state that they share.  A job is what a thread does without being interrupted:
it changes the state, goes on with other jobs, and hands jobs to the pool, which become threads of
their own.  Which thread works next is up to a schedule.

What matters of the threads is which jobs are pending.  An invariant of the state and the pending
jobs that every job keeps is an invariant of all schedules, and a size of jobs that every job
makes smaller bounds them.
-/

structure Effect (Shared Job : Type) where
  shared : Shared
  calls : List Job := []
  pushed : List Job := []

/-- The jobs that are pending after a job, apart from those that were before. -/
def Effect.added {Shared Job : Type} (effect : Effect Shared Job) : Multiset Job :=
  (effect.calls : Multiset Job) + effect.pushed

def totalWeight {Job : Type} (weight : Job -> Nat) (jobs : Multiset Job) : Nat :=
  (jobs.map weight).sum

section

variable {Job : Type} (weight : Job -> Nat)

@[simp] theorem totalWeight_zero : totalWeight weight 0 = 0 :=
  rfl

@[simp] theorem totalWeight_singleton (job : Job) : totalWeight weight {job} = weight job :=
  Multiset.sum_singleton _

@[simp] theorem totalWeight_cons (job : Job) (jobs : Multiset Job) :
    totalWeight weight (job ::ₘ jobs) = weight job + totalWeight weight jobs := by
  rw [totalWeight, Multiset.map_cons, Multiset.sum_cons, totalWeight]

@[simp] theorem totalWeight_add (first second : Multiset Job) :
    totalWeight weight (first + second) = totalWeight weight first + totalWeight weight second := by
  rw [totalWeight, Multiset.map_add, Multiset.sum_add, totalWeight, totalWeight]

@[simp] theorem totalWeight_coe (jobs : List Job) :
    totalWeight weight jobs = (jobs.map weight).sum := by
  rw [totalWeight, Multiset.map_coe, Multiset.sum_coe]

theorem weight_le_totalWeight {job : Job} {jobs : Multiset Job} (member : job ∈ jobs) :
    weight job <= totalWeight weight jobs := by
  rcases Multiset.exists_cons_of_mem member with ⟨_, rfl⟩
  rw [totalWeight_cons]
  exact Nat.le_add_right _ _

end

/-- Some job that is pending will see to it. -/
def PendingFor {Job : Type} (responsible : Job -> Prop) (jobs : Multiset Job) : Prop :=
  ∃ job ∈ jobs, responsible job

/-- Somebody is responsible for a fact or the fact is there, if every job hands its responsibility
on or establishes the fact. -/
theorem pendingFor_or {Job : Type} {responsible : Job -> Prop} {before after : Prop} {job : Job}
    {added others : Multiset Job} (either : PendingFor responsible (job ::ₘ others) \/ before)
    (moved : responsible job \/ before -> PendingFor responsible added \/ after) :
    PendingFor responsible (added + others) \/ after := by
  have handed : responsible job \/ before -> PendingFor responsible (added + others) \/ after := by
    intro concerned
    rcases moved concerned with ⟨next, new, takes⟩ | done
    · exact .inl ⟨next, Multiset.mem_add.mpr (.inl new), takes⟩
    · exact .inr done
  rcases either with ⟨other, member, takes⟩ | done
  · rcases Multiset.mem_cons.mp member with rfl | old
    · exact handed (.inl takes)
    · exact .inl ⟨other, Multiset.mem_add.mpr (.inr old), takes⟩
  · exact handed (.inr done)

/-- Nobody is responsible if those who are have a weight and there is none. -/
theorem not_pendingFor_of_totalWeight {Job : Type} {responsible : Job -> Prop} {weight : Job -> Nat}
    {jobs : Multiset Job} (weighs : ∀ job, responsible job -> 0 < weight job)
    (nothing : totalWeight weight jobs = 0) : ¬ PendingFor responsible jobs := by
  rintro ⟨job, member, takes⟩
  have part := weight_le_totalWeight weight member
  have positive := weighs job takes
  omega

/-- The state and the threads, none of which is finished.  A thread is the list of the jobs that it
has left to do, one after another. -/
structure WorkerPool (Shared Job : Type) where
  shared : Shared
  threads : List (List Job)
  busy : ∀ thread ∈ threads, thread ≠ []

namespace WorkerPool

variable {Shared Job : Type}

/-- A pool in which finished threads are left out. -/
def ofThreads (shared : Shared) (threads : List (List Job)) : WorkerPool Shared Job where
  shared := shared
  threads := threads.filter fun thread => !thread.isEmpty
  busy thread member := by
    have kept := (List.mem_filter.mp member).2
    intro empty
    rw [empty] at kept
    cases kept

def pending (pool : WorkerPool Shared Job) : Multiset Job :=
  pool.threads.flatten

theorem pending_ofThreads (shared : Shared) (threads : List (List Job)) :
    (ofThreads shared threads).pending = threads.flatten := by
  unfold pending ofThreads
  rw [flatten_filter_not_isEmpty]

variable (work : Shared -> Job -> Effect Shared Job) (halted : Shared -> Bool)

/-- One thread does one job, unless the process has come to a halt. -/
def step (pool : WorkerPool Shared Job) (choice : Nat) : WorkerPool Shared Job :=
  if halted pool.shared then pool
  else
    let index := choice % pool.threads.length
    match pool.threads[index]? with
    | some (job :: rest) =>
      let effect := work pool.shared job
      ofThreads effect.shared
        (pool.threads.set index (effect.calls ++ rest) ++ effect.pushed.map fun pushed => [pushed])
    | _ => pool

def run (start : WorkerPool Shared Job) (schedule : Nat -> Nat) : Nat -> WorkerPool Shared Job
  | 0 => start
  | count + 1 => (run start schedule count).step work halted (schedule count)

/-- Nothing more is done: the process has come to a halt, or no job is pending. -/
def AtRest (pool : WorkerPool Shared Job) : Prop :=
  halted pool.shared = true \/ pool.pending = 0

variable {work halted}

theorem flatten_set_perm {threads : List (List Job)} {index : Nat} {thread : List Job}
    (chosen : threads[index]? = some thread) (replacement : List Job) :
    ∃ others : List Job, threads.flatten.Perm (thread ++ others) /\
      (threads.set index replacement).flatten.Perm (replacement ++ others) := by
  induction threads generalizing index with
  | nil => cases chosen
  | cons first rest ih =>
    cases index with
    | zero =>
      injection chosen with same
      subst same
      exact ⟨rest.flatten, List.Perm.refl _, List.Perm.refl _⟩
    | succ index =>
      rcases ih chosen with ⟨others, before, after⟩
      refine ⟨first ++ others, ?_, ?_⟩
      · exact (before.append_left first).trans (perm_append_comm_assoc first thread others)
      · exact (after.append_left first).trans (perm_append_comm_assoc first replacement others)

variable {pool : WorkerPool Shared Job}

theorem step_of_rest (rest : AtRest halted pool) (choice : Nat) :
    pool.step work halted choice = pool := by
  unfold step
  rcases rest with stopped | idle
  · rw [if_pos stopped]
  have none : pool.threads = [] := by
    refine eq_nil_iff_forall_not_mem.mpr fun thread member => ?_
    have empty : pool.threads.flatten = [] := (Multiset.coe_eq_zero _).mp idle
    exact pool.busy thread member (flatten_eq_nil_iff.mp empty thread member)
  split
  · rfl
  · simp [none]

theorem step_cases (pool : WorkerPool Shared Job) (choice : Nat) :
    (AtRest halted pool /\ pool.step work halted choice = pool) \/
      ∃ job, ∃ others : Multiset Job, halted pool.shared = false /\ pool.pending = job ::ₘ others /\
        (pool.step work halted choice).shared = (work pool.shared job).shared /\
        (pool.step work halted choice).pending = (work pool.shared job).added + others := by
  by_cases rest : AtRest halted pool
  · exact .inl ⟨rest, step_of_rest rest choice⟩
  rw [AtRest, not_or, Bool.not_eq_true] at rest
  rcases rest with ⟨going, busy⟩
  have some_ : 0 < pool.threads.length := by
    refine length_pos_iff.mpr fun none => busy ?_
    rw [pending, none]
    rfl
  have inside := Nat.mod_lt choice some_
  have chosen := List.getElem?_eq_getElem inside
  have nonempty := pool.busy _ (getElem_mem inside)
  generalize pool.threads[choice % pool.threads.length] = thread at chosen nonempty
  cases thread with
  | nil => exact absurd rfl nonempty
  | cons job rest =>
    rcases flatten_set_perm chosen ((work pool.shared job).calls ++ rest) with ⟨others, before, after⟩
    refine .inr ⟨job, (rest ++ others : List Job), going, Multiset.coe_eq_coe.mpr before, ?_, ?_⟩
    · simp [step, going, chosen, ofThreads]
    have next : pool.step work halted choice = ofThreads (work pool.shared job).shared
      (pool.threads.set (choice % pool.threads.length) ((work pool.shared job).calls ++ rest) ++
        (work pool.shared job).pushed.map fun pushed => [pushed]) := by
      simp [step, going, chosen]
    have singles : ((work pool.shared job).pushed.map fun pushed => [pushed]).flatten =
      (work pool.shared job).pushed := by
      rw [<- flatMap_def, flatMap_singleton']
    rw [next, pending_ofThreads, flatten_append, singles, <- Multiset.coe_add,
      Multiset.coe_eq_coe.mpr after, Effect.added, <- Multiset.coe_add, <- Multiset.coe_add, <- Multiset.coe_add,
      add_assoc _ (rest : Multiset Job), add_right_comm]

theorem run_of_rest {start : WorkerPool Shared Job} (rest : AtRest halted start)
    (schedule : Nat -> Nat) (count : Nat) : run work halted start schedule count = start := by
  induction count with
  | zero => rfl
  | succ count ih => rw [run, ih, step_of_rest rest]

theorem invariant_run {invariant : Shared -> Multiset Job -> Prop}
    (kept : ∀ shared job others, halted shared = false -> invariant shared (job ::ₘ others) ->
      invariant (work shared job).shared ((work shared job).added + others))
    {start : WorkerPool Shared Job} (begins : invariant start.shared start.pending)
    (schedule : Nat -> Nat) (count : Nat) :
    invariant (run work halted start schedule count).shared (run work halted start schedule count).pending := by
  induction count with
  | zero => exact begins
  | succ count ih =>
    rw [run]
    rcases step_cases (run work halted start schedule count) (schedule count) with
      ⟨_, same⟩ | ⟨job, others, going, before, shared, after⟩
    · rw [same]
      exact ih
    rw [before] at ih
    rw [shared, after]
    exact kept _ job others going ih

/-- If every job leaves less to do, a schedule comes to rest. -/
theorem rests_of_size {size : Job -> Nat}
    (smaller : ∀ shared job, totalWeight size (work shared job).added < size job)
    (start : WorkerPool Shared Job) (schedule : Nat -> Nat) (count : Nat)
    (long : totalWeight size start.pending <= count) :
    AtRest halted (run work halted start schedule count) := by
  have shrinks : ∀ count, AtRest halted (run work halted start schedule count) \/
    totalWeight size (run work halted start schedule count).pending + count <=
      totalWeight size start.pending := by
    intro count
    induction count with
    | zero => exact .inr (le_refl _)
    | succ count ih =>
      rw [run]
      rcases ih with rest | bound
      · rw [step_of_rest rest]
        exact .inl rest
      rcases step_cases (run work halted start schedule count) (schedule count) with
        ⟨rest, same⟩ | ⟨job, _, _, before, _, after⟩
      · rw [same]
        exact .inl rest
      have less := smaller (run work halted start schedule count).shared job
      rw [before, totalWeight_cons] at bound
      rw [after, totalWeight_add]
      omega
  rcases shrinks count with rest | bound
  · exact rest
  right
  refine Multiset.eq_zero_of_forall_notMem fun job member => ?_
  have part := weight_le_totalWeight size member
  have positive := smaller start.shared job
  omega

end WorkerPool
end StakeCubeCoin.Library
