import CoopScript.Machine.Runner
import Mathlib.Data.List.Nodup
import Mathlib.Data.List.Perm.Basic

set_option autoImplicit false
namespace CoopScript

namespace TaskTable

theorem state_empty (task : TaskId) : empty.state? task = none := by
  obtain ⟨number⟩ := task
  cases number <;> rfl

theorem state_created (table : TaskTable) (task : TaskId) :
    table.create.2.state? task =
      if task = table.create.1 then some .pending else table.state? task := by
  obtain ⟨number⟩ := task
  cases number with
  | zero => simp [state?, create]
  | succ number =>
    by_cases last : number = table.states.size
    · simp [state?, create, last]
    · simp [state?, create, Array.getElem?_push, last]

theorem state_set (table : TaskTable) (task other : TaskId) (old state : TaskState)
    (known : table.state? task = some old) :
    (table.setState task state).state? other = if other = task then some state else table.state? other := by
  obtain ⟨number⟩ := task
  obtain ⟨place⟩ := other
  cases number with
  | zero => simp [state?] at known
  | succ number =>
    cases place with
    | zero => simp [state?]
    | succ place =>
      simp only [state?, Nat.succ_ne_zero, if_false, Nat.add_sub_cancel] at known
      have bound := (Array.getElem?_eq_some_iff.mp known).1
      by_cases same : number = place
      · subst same
        simp [state?, setState, bound]
      · simp [state?, setState, same, Ne.symm same]

theorem settle_done (table after : TaskTable) (task : TaskId) (value : Value)
    (settled : table.settle task value = .ok after) :
    table.state? task = some .pending ∧
      ∀ other, after.state? other = if other = task then some (.ready value) else table.state? other := by
  unfold settle at settled
  split at settled
  next pending =>
    cases settled
    exact ⟨pending, fun other => state_set table task other .pending (.ready value) pending⟩
  next => cases settled
  next => cases settled

theorem settle_pending (table : TaskTable) (task : TaskId) (value : Value) (pending : table.state? task = some .pending) :
    table.settle task value = .ok (table.setState task (.ready value)) := by
  simp only [settle, pending]

theorem consume_done (table after : TaskTable) (task : TaskId) (value : Value)
    (consumed : table.consume task = .ok (some value, after)) :
    table.state? task = some (.ready value) ∧
      ∀ other, after.state? other = if other = task then some .consumed else table.state? other := by
  unfold consume at consumed
  split at consumed
  next => simp at consumed
  next ready found =>
    cases consumed
    exact ⟨found, fun other => state_set table task other (.ready value) .consumed found⟩
  next => cases consumed
  next => cases consumed

theorem consume_waits (table after : TaskTable) (task : TaskId)
    (consumed : table.consume task = .ok (none, after)) :
    table.state? task = some .pending ∧ after = table := by
  unfold consume at consumed
  split at consumed
  next pending =>
    cases consumed
    exact ⟨pending, rfl⟩
  next => simp at consumed
  next => cases consumed
  next => cases consumed

def count (table : TaskTable) : Nat := table.states.size

theorem created_within (table : TaskTable) :
    0 < table.create.1.number ∧ table.create.1.number ≤ table.create.2.count :=
  ⟨Nat.succ_pos _, by simp [create, count]⟩

theorem count_created (table : TaskTable) : table.count ≤ table.create.2.count := by simp [create, count]

theorem count_settled (table after : TaskTable) (task : TaskId) (value : Value)
    (settled : table.settle task value = .ok after) : after.count = table.count := by
  unfold settle at settled
  split at settled
  next =>
    cases settled
    simp [count, setState]
  next => cases settled
  next => cases settled

theorem count_consumed (table after : TaskTable) (task : TaskId) (value : Option Value)
    (consumed : table.consume task = .ok (value, after)) : after.count = table.count := by
  unfold consume at consumed
  split at consumed
  next =>
    cases consumed
    rfl
  next =>
    cases consumed
    simp [count, setState]
  next => cases consumed
  next => cases consumed

end TaskTable

namespace Machine

def registered (machine : Machine) : List (RunnerId × FrameId) :=
  machine.runners.map fun entry => (entry.1, entry.2.frame)

-- Runners are numbered from one in the order of their making.
structure Numbered (machine : Machine) : Prop where
  distinct : (machine.runners.map Prod.fst).Nodup
  bounded : ∀ entry ∈ machine.runners, entry.1.number ≤ machine.runnerCount

theorem swap_erase_subset (id : RunnerId) (runners : List (RunnerId × Runner)) : swapErase id runners ⊆ runners := by
  unfold swapErase
  split
  next place last _ known =>
    intro entry member
    rcases List.mem_or_eq_of_mem_set (List.dropLast_subset _ member) with old | rfl
    · exact old
    · exact List.mem_of_getLast? known
  next => exact List.Subset.refl _

theorem swap_erase_perm (id : RunnerId) (runner : Runner) (runners : List (RunnerId × Runner))
    (found : runners.find? (fun entry => entry.1 = id) = some (id, runner)) :
    ((id, runner) :: swapErase id runners).Perm runners := by
  obtain ⟨place, located, reads⟩ : ∃ place, runners.findIdx? (fun entry => entry.1 = id) = some place ∧
      runners[place]? = some (id, runner) := by
    rw [List.find?_eq_some_iff_getElem] at found
    obtain ⟨known, place, bound, here, before⟩ := found
    refine ⟨place, List.findIdx?_eq_some_iff_getElem.mpr ⟨bound, ?_, ?_⟩, ?_⟩
    · simp [here]
    · intro earlier sooner
      simpa using before earlier sooner
    · rw [List.getElem?_eq_getElem bound, here]
  obtain ⟨bound, here⟩ := List.getElem?_eq_some_iff.mp reads
  have nonempty : runners ≠ [] := fun empty => by simp [empty] at bound
  obtain ⟨front, last, rfl⟩ : ∃ front last, runners = front ++ [last] :=
    ⟨runners.dropLast, runners.getLast nonempty, (List.dropLast_concat_getLast nonempty).symm⟩
  simp only [swapErase, located, List.getLast?_append, List.getLast?_singleton, Option.some_or]
  by_cases end_place : place = front.length
  · subst end_place
    obtain rfl : last = (id, runner) := by simpa using here
    simpa using (List.perm_append_singleton (id, runner) front).symm
  · have inside : place < front.length := by
      simp only [List.length_append, List.length_singleton] at bound
      omega
    rw [List.getElem_append_left inside] at here
    rw [List.set_append_left _ _ inside, List.dropLast_concat]
    have erased := List.getElem_cons_eraseIdx_perm inside
    rw [here] at erased
    calc ((id, runner) :: front.set place last).Perm ((id, runner) :: last :: front.eraseIdx place) :=
          (List.set_perm_cons_eraseIdx inside last).cons _
      _ |>.Perm (last :: (id, runner) :: front.eraseIdx place) := List.Perm.swap _ _ _
      _ |>.Perm (last :: front) := erased.cons _
      _ |>.Perm (front ++ [last]) := (List.perm_append_singleton last front).symm

theorem registered_updated (machine : Machine) (id : RunnerId) (change : Runner → Runner)
    (same : ∀ runner, (change runner).frame = runner.frame) :
    (machine.updateRunner id change).registered = machine.registered := by
  unfold registered updateRunner
  simp only [List.map_map]
  apply List.map_congr_left
  intro entry _
  simp only [Function.comp]
  split <;> simp [same]

theorem registered_names (machine : Machine) :
    machine.registered.map Prod.fst = machine.runners.map Prod.fst := by
  simp [registered, Function.comp_def]

theorem numbered_updated (machine : Machine) (id : RunnerId) (change : Runner → Runner)
    (same : ∀ runner, (change runner).frame = runner.frame) (numbered : machine.Numbered) :
    (machine.updateRunner id change).Numbered := by
  have names : (machine.updateRunner id change).runners.map Prod.fst = machine.runners.map Prod.fst := by
    rw [← registered_names, ← registered_names, registered_updated machine id change same]
  constructor
  · rw [names]
    exact numbered.distinct
  · intro entry member
    have named : entry.1 ∈ machine.runners.map Prod.fst := names ▸ List.mem_map_of_mem member
    obtain ⟨old, oldMember, oldNamed⟩ := List.mem_map.mp named
    exact oldNamed ▸ numbered.bounded old oldMember

theorem runner_found (machine : Machine) (id : RunnerId) (runner : Runner)
    (known : machine.runner? id = some runner) :
    machine.runners.find? (fun entry => entry.1 = id) = some (id, runner) := by
  unfold runner? at known
  cases found : machine.runners.find? (fun entry => entry.1 = id) with
  | none => simp [found] at known
  | some entry =>
    have named : entry.1 = id := by simpa using List.find?_some found
    simp only [found, Option.map_some, Option.some.injEq] at known
    rw [← known, ← named]

theorem runner_listed (machine : Machine) (id : RunnerId) (runner : Runner)
    (distinct : (machine.runners.map Prod.fst).Nodup) (member : (id, runner) ∈ machine.runners) :
    machine.runner? id = some runner := by
  unfold runner?
  cases found : machine.runners.find? (fun entry => entry.1 = id) with
  | none => simpa using List.find?_eq_none.mp found (id, runner) member
  | some entry =>
    have named : entry.1 = id := by simpa using List.find?_some found
    have same := List.inj_on_of_nodup_map distinct (List.mem_of_find?_eq_some found) member named
    simp [same]

theorem update_unknown (machine : Machine) (id : RunnerId) (change : Runner → Runner)
    (unknown : machine.runner? id = none) : machine.updateRunner id change = machine := by
  have others : ∀ entry ∈ machine.runners, entry.1 ≠ id := by
    simpa [runner?] using unknown
  have same : (machine.runners.map fun entry => if entry.1 = id then (entry.1, change entry.2) else entry) =
      machine.runners :=
    (List.map_congr_left fun entry member => if_neg (others entry member)).trans (List.map_id _)
  simp only [updateRunner, same]

theorem registered_erased (machine : Machine) (id : RunnerId) (runner : Runner)
    (known : machine.runner? id = some runner) :
    ((id, runner.frame) :: (swapErase id machine.runners).map fun entry => (entry.1, entry.2.frame)).Perm
      machine.registered :=
  (swap_erase_perm id runner machine.runners (runner_found machine id runner known)).map
    fun entry : RunnerId × Runner => (entry.1, entry.2.frame)

theorem numbered_erased (machine : Machine) (id : RunnerId) (runner : Runner) (frames : Arena)
    (known : machine.runner? id = some runner) (numbered : machine.Numbered) :
    Numbered { machine with runners := swapErase id machine.runners, frames := frames } := by
  have erased := swap_erase_perm id runner machine.runners (runner_found machine id runner known)
  constructor
  · have names := (erased.map Prod.fst).nodup_iff.mpr numbered.distinct
    exact (List.nodup_cons.mp names).2
  · intro entry member
    exact numbered.bounded entry (erased.subset (List.mem_cons_of_mem _ member))

theorem numbered_appended (machine : Machine) (runner : Runner) (clock : Nat) (frames : Arena)
    (numbered : machine.Numbered) :
    Numbered { machine with
      clock := clock
      frames := frames
      runnerCount := machine.runnerCount + 1
      runners := machine.runners ++ [(⟨machine.runnerCount + 1⟩, runner)] } := by
  have unknown : (⟨machine.runnerCount + 1⟩ : RunnerId) ∉ machine.runners.map Prod.fst := by
    intro member
    obtain ⟨entry, entryMember, named⟩ := List.mem_map.mp member
    have bound := numbered.bounded entry entryMember
    rw [named] at bound
    exact Nat.not_succ_le_self _ bound
  constructor
  · simp only [List.map_append, List.map_cons, List.map_nil]
    exact (List.perm_append_singleton _ _).nodup_iff.mpr (List.nodup_cons.mpr ⟨unknown, numbered.distinct⟩)
  · intro entry member
    rcases List.mem_append.mp member with old | new
    · exact Nat.le_succ_of_le (numbered.bounded entry old)
    · obtain rfl := List.mem_singleton.mp new
      exact Nat.le_refl _

end Machine

end CoopScript
