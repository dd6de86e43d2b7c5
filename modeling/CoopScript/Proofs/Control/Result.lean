import CoopScript.Proofs.Frame.Release
import CoopScript.Proofs.Machine.Primitive
import CoopScript.Proofs.Machine.Registry

set_option autoImplicit false
namespace CoopScript

namespace Arena

def result? (arena : Arena) (id : FrameId) : Option Value := (arena.frame? id).bind Frame.returned

def cleared (arena : Arena) (id : FrameId) : Arena :=
  match arena.frame? id with
  | some frame => arena.setFrame id.index { frame with returned := none }
  | none => arena

theorem returned_result (arena : Arena) (id : FrameId) :
    arena.hasReturned id = (arena.result? id).isSome := by
  unfold hasReturned result?
  cases arena.frame? id <;> rfl

theorem set_frame_twice (arena : Arena) (index : Nat) (first second : Frame) :
    (arena.setFrame index first).setFrame index second = arena.setFrame index second := by
  unfold setFrame
  congr 1
  apply Array.ext_getElem?
  intro place
  simp only [Array.getElem?_modify]
  split
  · cases arena.slots[place]? <;> rfl
  · rfl

theorem set_frame_same (arena : Arena) (id : FrameId) (frame : Frame) (found : arena.frame? id = some frame) :
    arena.setFrame id.index frame = arena := by
  have read := (frame_found arena id frame).mp found
  unfold setFrame
  congr 1
  apply Array.ext_getElem?
  intro place
  simp only [Array.getElem?_modify]
  split
  next same =>
    subst same
    rw [read]
    rfl
  next => rfl

theorem cleared_blank (arena : Arena) (id : FrameId) (blank : arena.result? id = none) :
    arena.cleared id = arena := by
  unfold cleared
  cases found : arena.frame? id with
  | none => rfl
  | some frame =>
    have without : frame.returned = none := by simpa [result?, found] using blank
    have same : { frame with returned := none } = frame := by
      rw [← without]
    simp only [same]
    exact set_frame_same arena id frame found

theorem cleared_set (arena : Arena) (id : FrameId) (old frame : Frame) (found : arena.frame? id = some old) :
    (arena.setFrame id.index frame).cleared id = arena.setFrame id.index { frame with returned := none } := by
  have read := frame_set arena id id old frame found
  rw [if_pos rfl] at read
  unfold cleared
  rw [read]
  exact set_frame_twice arena id.index frame { frame with returned := none }

theorem frame_cleared (arena : Arena) (id : FrameId) (frame : Frame) (found : arena.frame? id = some frame) :
    (arena.cleared id).frame? id = some { frame with returned := none } := by
  have read := frame_set arena id id frame { frame with returned := none } found
  rw [if_pos rfl] at read
  unfold cleared
  rw [found]
  exact read

theorem take_return_cleared (arena : Arena) (id : FrameId) (live : arena.isLive id = true) :
    arena.takeReturn id = .ok (arena.result? id, arena.cleared id) := by
  obtain ⟨frame, found⟩ := (live_found arena id).mp live
  simp only [takeReturn, cleared, result?, found, Option.bind_some]

-- Changes of the holds of a frame do not depend on its result.
theorem update_cleared (arena : Arena) (id : FrameId) (change : Frame → Frame) (frame : Frame)
    (found : arena.frame? id = some frame)
    (apart : change { frame with returned := none } = { change frame with returned := none }) :
    (arena.cleared id).update id change = .ok ((arena.setFrame id.index (change frame)).cleared id) := by
  rw [cleared_set arena id frame (change frame) found]
  unfold update
  rw [frame_cleared arena id frame found]
  simp only [apart]
  unfold cleared
  rw [found]
  simp only [set_frame_twice]

theorem function_frame_own (arena : Arena) (id : FrameId) (frame : Frame) (found : arena.frame? id = some frame)
    (function : frame.isFunction = true) : arena.functionFrame id = .ok (some id) := by
  simp [functionFrame, search, searchChain, reach, found, function]

theorem function_frame_set (arena : Arena) (place id : FrameId) (old frame : Frame)
    (found : arena.frame? place = some old) (sameParent : frame.parent = old.parent)
    (sameKind : frame.isFunction = old.isFunction) :
    (arena.setFrame place.index frame).functionFrame id = arena.functionFrame id := by
  have sameReach : (arena.setFrame place.index frame).reach = arena.reach := by simp [reach, setFrame]
  unfold functionFrame search
  rw [sameReach]
  generalize arena.reach = fuel
  induction fuel generalizing id with
  | zero => rfl
  | succ fuel ih =>
    have read := arena.frame_set place id old frame found
    simp only [searchChain, read, ih]
    by_cases here : id = place
    · rw [if_pos here, here, found]
      simp only [sameKind, sameParent]
    · rw [if_neg here]

theorem set_return_done (arena after : Arena) (id : FrameId) (value : Value)
    (done : arena.setReturn id value = .ok after) :
    ∃ function, after.functionFrame id = .ok (some function) ∧ after.hasReturned function = true := by
  unfold setReturn at done
  split at done
  next function asked =>
    unfold update at done
    cases found : arena.frame? function with
    | none => simp [found] at done
    | some frame =>
      simp only [found, Except.ok.injEq] at done
      subst done
      refine ⟨function, ?_, ?_⟩
      · rw [arena.function_frame_set function id frame { frame with returned := some value } found rfl rfl]
        exact asked
      · have read := arena.frame_set function function frame { frame with returned := some value } found
        rw [if_pos rfl] at read
        simp only [hasReturned, read, Option.isSome_some]
  next => cases done
  next => cases done

-- Somebody else still holds the frame.
theorem release_held (arena : Arena) (id : FrameId) (frame : Frame) (found : arena.frame? id = some frame)
    (several : 1 < frame.holds) :
    arena.release id = (arena.setFrame id.index { frame with holds := frame.holds - 1 }, none) := by
  simp [release, releaseChain, reach, found, several]

theorem returned_set (arena : Arena) (id other : FrameId) (old frame : Frame)
    (found : arena.frame? id = some old) (elsewhere : other ≠ id) :
    (arena.setFrame id.index frame).hasReturned other = arena.hasReturned other := by
  have read := frame_set arena id other old frame found
  rw [if_neg elsewhere] at read
  simp only [hasReturned, read]

theorem returned_cleared (arena : Arena) (id other : FrameId) (elsewhere : other ≠ id) :
    (arena.cleared id).hasReturned other = arena.hasReturned other := by
  unfold cleared
  cases found : arena.frame? id with
  | none => rfl
  | some frame => exact returned_set arena id other frame _ found elsewhere

-- A hold more changes no result.
theorem retain_cleared (arena : Arena) (id : FrameId) (frame : Frame) (found : arena.frame? id = some frame) :
    ∃ after, arena.retain id = .ok after ∧ (arena.cleared id).retain id = .ok (after.cleared id) ∧
      after.frame? id = some { frame with holds := frame.holds + 1 } ∧ after.result? id = arena.result? id ∧
      ∀ other, other ≠ id → after.hasReturned other = arena.hasReturned other := by
  have read := arena.frame_set id id frame { frame with holds := frame.holds + 1 } found
  rw [if_pos rfl] at read
  refine ⟨_, by simp only [retain, update, found],
    arena.update_cleared id (fun frame => { frame with holds := frame.holds + 1 }) frame found rfl, read, ?_,
    fun other elsewhere => arena.returned_set id other frame _ found elsewhere⟩
  simp only [result?, read, found, Option.bind_some]

end Arena

namespace Machine

theorem runner_updated (machine : Machine) (id other : RunnerId) (change : Runner → Runner) :
    (machine.updateRunner id change).runner? other =
      (machine.runner? other).map fun runner => if other = id then change runner else runner := by
  unfold runner? updateRunner
  rw [List.find?_map]
  have sameName : ((fun entry : RunnerId × Runner => decide (entry.1 = other)) ∘ fun entry =>
      if entry.1 = id then (entry.1, change entry.2) else entry) = fun entry => decide (entry.1 = other) := by
    funext entry
    simp only [Function.comp]
    split <;> rfl
  rw [sameName]
  cases found : machine.runners.find? fun entry => decide (entry.1 = other) with
  | none => rfl
  | some entry =>
    have named : entry.1 = other := by simpa using List.find?_some found
    subst named
    simp only [Option.map_some]
    split <;> rfl

theorem runner_appended (machine : Machine) (id other : RunnerId) (runner : Runner)
    (unknown : machine.runner? id = none) (after : Machine)
    (appended : after.runners = machine.runners ++ [(id, runner)]) :
    after.runner? other = if other = id then some runner else machine.runner? other := by
  unfold runner? at unknown ⊢
  rw [appended, List.find?_append]
  by_cases same : other = id
  · subst same
    have absent : machine.runners.find? (fun entry => decide (entry.1 = other)) = none := by simpa using unknown
    simp [absent]
  · simp [same, Ne.symm same]

theorem runner_fresh (machine : Machine) (numbered : machine.Numbered) :
    machine.runner? ⟨machine.runnerCount + 1⟩ = none := by
  unfold runner?
  rw [Option.map_eq_none_iff, List.find?_eq_none]
  intro entry member same
  have bound := numbered.bounded entry member
  have named : entry.1 = ⟨machine.runnerCount + 1⟩ := by simpa using same
  rw [named] at bound
  exact Nat.not_succ_le_self _ bound

theorem runner_erased (machine : Machine) (id other : RunnerId) (erased runner : Runner) (frames : Arena)
    (numbered : machine.Numbered) (known : machine.runner? id = some erased) (elsewhere : other ≠ id)
    (found : machine.runner? other = some runner) :
    runner? { machine with runners := swapErase id machine.runners, frames := frames } other = some runner := by
  have perm := swap_erase_perm id erased machine.runners (runner_found machine id erased known)
  have left := numbered_erased machine id erased frames known numbered
  apply runner_listed _ other runner left.distinct
  have member := List.mem_of_find?_eq_some (runner_found machine other runner found)
  rcases List.mem_cons.mp (perm.symm.subset member) with same | later
  · exact absurd (congrArg Prod.fst same) elsewhere
  · exact later

theorem returned_known (machine : Machine) (id : RunnerId) (runner : Runner) (frame : FrameId)
    (known : machine.runner? id = some runner) (function : runner.functionFrame = some frame) :
    machine.runnerReturned id = machine.frames.hasReturned frame := by
  simp only [runnerReturned, known, Option.bind_some, function]

end Machine

theorem Exec.record_done (id : RunnerId) (value : Option Value) (machine : Machine) :
    record id value machine =
      .done () (machine.updateRunner id fun runner => { runner with last := value.or runner.last }) := by
  cases value with
  | some value => rfl
  | none =>
    have same : machine.updateRunner id (fun runner => { runner with last := none.or runner.last }) = machine := by
      have kept : ∀ entry : RunnerId × Runner, (if entry.1 = id then
          (entry.1, { entry.2 with last := none.or entry.2.last }) else entry) = entry := by
        intro entry
        split <;> rfl
      unfold Machine.updateRunner
      simp only [kept, List.map_id']
    rw [same]
    rfl

end CoopScript
