import CoopScript.Proofs.Fault.Bound
import CoopScript.Proofs.Lens.Value

set_option autoImplicit false
namespace CoopScript

namespace Lens
variable (lens : Lens)

def frame (frame : Frame) : Frame :=
  { frame with bindings := lens.bindings frame.bindings, returned := frame.returned.map lens.value }

def slot (slot : Slot) : Slot := { slot with frame := slot.frame.map lens.frame }

def arena (arena : Arena) : Arena := { arena with slots := arena.slots.map lens.slot }

def classInfo (info : ClassInfo) : ClassInfo := { info with members := info.members.map lens.value }

def classes (table : ClassTable) : ClassTable := { table with classes := table.classes.map lens.classInfo }

def state : TaskState → TaskState
  | .pending => .pending
  | .ready value => .ready (lens.value value)
  | .consumed => .consumed

def tasks (table : TaskTable) : TaskTable :=
  match lens.bound with
  | none => ⟨table.states.map lens.state⟩
  | some bound => ⟨(table.states.map lens.state).extract 0 bound.known ++ lens.extra.toArray⟩

def shift (id : RunnerId) : RunnerId := ⟨id.number + lens.offset⟩

def runner (runner : Runner) : Runner :=
  { runner with lines := lens.lines runner.lines, last := runner.last.map lens.value }

def entry (entry : RunnerId × Runner) : RunnerId × Runner := (lens.shift entry.1, lens.runner entry.2)

def line (line : Line) : Line := ⟨lens.node line.node, lens.shift line.runner, line.frame⟩

def microtask : Microtask → Microtask
  | .asyncBody task name lines frame => .asyncBody task name (lens.lines lines) frame
  | .settle task value => .settle task value
  | .panicked task => .panicked task
  | .host actions => .host actions

def machine (machine : Machine) : Machine :=
  { machine with
    classes := lens.classes machine.classes
    frames := lens.arena machine.frames
    tasks := lens.tasks machine.tasks
    ready := machine.ready.map lens.line
    microtasks := machine.microtasks.map lens.microtask
    runners := lens.outer ++ machine.runners.map lens.entry
    runnerCount := machine.runnerCount + lens.offset }

section Frames
variable (arena : Arena) (id : FrameId)

@[simp] theorem frame_arena : (lens.arena arena).frame? id = (arena.frame? id).map lens.frame := by
  unfold Arena.frame? Lens.arena
  simp only [Array.getElem?_map]
  cases arena.slots[id.index]? with
  | none => rfl
  | some slot =>
    simp only [Option.map_some, Lens.slot]
    split <;> rfl

@[simp] theorem set_frame_arena (index : Nat) (frame : Frame) :
    (lens.arena arena).setFrame index (lens.frame frame) = lens.arena (arena.setFrame index frame) := by
  simp only [Arena.setFrame, Lens.arena, Arena.mk.injEq, and_true]
  refine Array.ext_getElem? fun place => ?_
  simp only [Array.getElem?_map, Array.getElem?_modify]
  split
  · cases arena.slots[place]? <;> rfl
  · rfl

@[simp] theorem vacate_arena (index : Nat) : (lens.arena arena).vacate index = lens.arena (arena.vacate index) := by
  simp only [Arena.vacate, Lens.arena, Arena.mk.injEq, and_true]
  refine Array.ext_getElem? fun place => ?_
  simp only [Array.getElem?_map, Array.getElem?_modify]
  split
  · cases arena.slots[place]? <;> rfl
  · rfl

theorem update_arena (change twin : Frame → Frame) (natural : ∀ frame, twin (lens.frame frame) = lens.frame (change frame)) :
    (lens.arena arena).update id twin = (arena.update id change).map lens.arena := by
  unfold Arena.update
  rw [frame_arena]
  cases arena.frame? id with
  | none => rfl
  | some frame => simp only [Option.map_some, natural, set_frame_arena]; rfl

@[simp] theorem retain_arena : (lens.arena arena).retain id = (arena.retain id).map lens.arena :=
  lens.update_arena arena id _ _ fun _ => rfl

theorem allocate_arena (frame : Frame) : (lens.arena arena).allocate (lens.frame frame) =
    ((arena.allocate frame).1, lens.arena (arena.allocate frame).2) := by
  unfold Arena.allocate
  rw [show (lens.arena arena).free = arena.free from rfl]
  cases free : arena.free with
  | nil => simp [Lens.arena, Lens.slot, free]
  | cons index rest =>
    have seen : (lens.arena arena).slots[index]? = arena.slots[index]?.map lens.slot := Array.getElem?_map
    simp only [seen, set_frame_arena]
    cases arena.slots[index]? <;> rfl

theorem push_arena (parent : FrameId) (isFunction : Bool) (bindings : Bindings) :
    (lens.arena arena).push parent isFunction (lens.bindings bindings) =
      (arena.push parent isFunction bindings).map fun pushed => (pushed.1, lens.arena pushed.2) := by
  unfold Arena.push
  rw [retain_arena]
  cases arena.retain parent with
  | error cause => rfl
  | ok retained => exact congrArg Except.ok (lens.allocate_arena retained (.fresh (some parent) isFunction bindings))

theorem release_chain_arena (fuel : Nat) : (lens.arena arena).releaseChain fuel id =
    (lens.arena (arena.releaseChain fuel id).1, (arena.releaseChain fuel id).2) := by
  induction fuel generalizing arena id with
  | zero => rfl
  | succ fuel ih =>
    unfold Arena.releaseChain
    rw [frame_arena]
    cases arena.frame? id with
    | none => rfl
    | some frame =>
      simp only [Option.map_some]
      rw [show (lens.frame frame).holds = frame.holds from rfl, show (lens.frame frame).parent = frame.parent from rfl]
      split
      · exact congrArg (·, none) (lens.set_frame_arena arena id.index { frame with holds := frame.holds - 1 })
      · cases frame.parent with
        | none => simp only [vacate_arena]
        | some parent => simp only [vacate_arena, ih]

@[simp] theorem reach_arena : (lens.arena arena).reach = arena.reach := by simp [Arena.reach, Lens.arena]

theorem release_arena : (lens.arena arena).release id =
    (lens.arena (arena.release id).1, (arena.release id).2) := by
  unfold Arena.release
  rw [reach_arena, release_chain_arena]

theorem search_arena {α β : Type} (ask : FrameId → Frame → Option α) (twin : FrameId → Frame → Option β) (see : α → β)
    (natural : ∀ id frame, twin id (lens.frame frame) = (ask id frame).map see) :
    (lens.arena arena).search twin id = (arena.search ask id).map (Option.map see) := by
  unfold Arena.search
  rw [reach_arena]
  generalize arena.reach = fuel
  induction fuel generalizing id with
  | zero => rfl
  | succ fuel ih =>
    unfold Arena.searchChain
    rw [frame_arena]
    cases arena.frame? id with
    | none => rfl
    | some frame =>
      simp only [Option.map_some, natural]
      cases ask id frame with
      | some answer => rfl
      | none =>
        simp only [Option.map_none]
        rw [show (lens.frame frame).parent = frame.parent from rfl]
        cases frame.parent with
        | none => rfl
        | some parent => exact ih parent

theorem look_up_arena (name : String) : (lens.arena arena).lookUp id name = (arena.lookUp id name).map lens.value := by
  unfold Arena.lookUp
  rw [lens.search_arena arena id (fun _ frame => frame.bindings.find? name) (fun _ frame => frame.bindings.find? name)
    lens.value fun _ frame => frame.bindings.find_map lens.value name]
  cases arena.search (fun _ frame => frame.bindings.find? name) id with
  | error cause => rfl
  | ok found => cases found <;> rfl

theorem set_variable_arena (name : String) (value : Value) :
    (lens.arena arena).setVariable id name (lens.value value) = (arena.setVariable id name value).map lens.arena := by
  refine lens.update_arena arena id _ _ fun frame => ?_
  simp only [Lens.frame, Lens.bindings, NameMap.insert_map]

theorem target_arena (name : String) : (lens.arena arena).target id name = arena.target id name := by
  let ask (candidate : FrameId) (frame : Frame) : Option FrameId :=
    if frame.bindings.contains name then some candidate else if frame.isFunction then some id else none
  have natural : ∀ candidate frame, ask candidate (lens.frame frame) = (ask candidate frame).map fun target => target := by
    intro candidate frame
    simp only [ask, Lens.frame, Lens.bindings, NameMap.contains_map, Option.map_id']
  show ((lens.arena arena).search ask id).map _ = (arena.search ask id).map _
  rw [lens.search_arena arena id ask ask (fun target => target) natural]
  cases arena.search ask id with
  | error cause => rfl
  | ok found => cases found <;> rfl

theorem assign_arena (name : String) (value : Value) :
    (lens.arena arena).assign id name (lens.value value) = (arena.assign id name value).map lens.arena := by
  unfold Arena.assign
  rw [target_arena]
  cases arena.target id name with
  | error cause => rfl
  | ok target => exact lens.set_variable_arena arena target name value

@[simp] theorem function_frame_arena : (lens.arena arena).functionFrame id = arena.functionFrame id := by
  let ask (candidate : FrameId) (frame : Frame) : Option FrameId := if frame.isFunction then some candidate else none
  have natural : ∀ candidate frame, ask candidate (lens.frame frame) = (ask candidate frame).map fun target => target := by
    intro candidate frame
    simp only [ask, Lens.frame, Option.map_id']
  show (lens.arena arena).search ask id = arena.search ask id
  rw [lens.search_arena arena id ask ask (fun target => target) natural]
  cases arena.search ask id with
  | error cause => rfl
  | ok found => cases found <;> rfl

theorem set_return_arena (value : Value) :
    (lens.arena arena).setReturn id (lens.value value) = (arena.setReturn id value).map lens.arena := by
  unfold Arena.setReturn
  rw [function_frame_arena]
  cases arena.functionFrame id with
  | error cause => rfl
  | ok found =>
    cases found with
    | none => rfl
    | some function => exact lens.update_arena arena function _ _ fun _ => rfl

@[simp] theorem has_returned_arena : (lens.arena arena).hasReturned id = arena.hasReturned id := by
  unfold Arena.hasReturned
  rw [frame_arena]
  cases arena.frame? id with
  | none => rfl
  | some frame => simp [Lens.frame]

theorem take_return_arena : (lens.arena arena).takeReturn id =
    (arena.takeReturn id).map fun taken => (taken.1.map lens.value, lens.arena taken.2) := by
  unfold Arena.takeReturn
  rw [frame_arena]
  cases arena.frame? id with
  | none => rfl
  | some frame =>
    exact congrArg (fun frames => Except.ok (frame.returned.map lens.value, frames))
      (lens.set_frame_arena arena id.index { frame with returned := none })

end Frames

section Classes
variable (table : ClassTable)

theorem get_classes (id : ClassId) : (lens.classes table).get? id = (table.get? id).map lens.classInfo := by
  simp [ClassTable.get?, Lens.classes]

@[simp] theorem name_of_classes (value : Value) : (lens.classes table).nameOf (lens.value value) = table.nameOf value := by
  unfold ClassTable.nameOf
  rw [class_value, get_classes]
  cases table.get? value.classId <;> rfl

theorem inherits_within_classes (fuel : Nat) (id ancestor : ClassId) :
    (lens.classes table).inheritsWithin fuel id ancestor = table.inheritsWithin fuel id ancestor := by
  induction fuel generalizing id with
  | zero => rfl
  | succ fuel ih =>
    unfold ClassTable.inheritsWithin
    rw [get_classes]
    cases table.get? id with
    | none => rfl
    | some info => simp only [Option.map_some, Lens.classInfo, ih]

@[simp] theorem is_function_classes (value : Value) :
    (lens.classes table).isFunction (lens.value value) = table.isFunction value := by
  unfold ClassTable.isFunction ClassTable.inherits
  rw [class_value, inherits_within_classes]
  simp [Lens.classes]

theorem instantiate_classes (id : ClassId) (data : Data Value) :
    (lens.classes table).instantiate id (lens.data data) = lens.value (table.instantiate id data) := by
  unfold ClassTable.instantiate
  rw [get_classes, value_parts]
  cases table.get? id <;> rfl

theorem scalar_classes (scalar : Scalar) : (lens.classes table).scalar scalar = lens.value (table.scalar scalar) := by
  cases scalar with
  | void => exact lens.instantiate_classes table .void .void
  | number x => exact lens.instantiate_classes table .number (.number x)
  | text text => exact lens.instantiate_classes table .string (.text text)
  | flag flag => exact lens.instantiate_classes table .boolean (.flag flag)

theorem array_classes (identity : Nat) (items : List Value) :
    (lens.classes table).array identity (items.map lens.value) = lens.value (table.array identity items) := by
  rw [← items_map]
  exact lens.instantiate_classes table .array (.array identity items)

theorem promise_classes (task : TaskId) : (lens.classes table).promise task = lens.value (table.promise task) :=
  lens.instantiate_classes table .promise (.promise task)

end Classes

section Tasks
variable (table : TaskTable)

def Knows (task : TaskId) : Prop := ∀ bound, lens.bound = some bound → 0 < task.number ∧ task.number ≤ bound.known

def Fills (table : TaskTable) : Prop :=
  ∀ bound, lens.bound = some bound → table.count = bound.total ∧ bound.known ≤ bound.total

theorem state_tasks (task : TaskId) (fills : lens.Fills table) (knows : lens.Knows task) :
    (lens.tasks table).state? task = (table.state? task).map lens.state := by
  unfold TaskTable.state? Lens.tasks
  by_cases none : task.number = 0
  · simp [none]
  · rw [if_neg none, if_neg none]
    cases bounded : lens.bound with
    | none => simp
    | some bound =>
      obtain ⟨full, few⟩ := fills bound bounded
      obtain ⟨positive, within⟩ := knows bound bounded
      have size : table.states.size = bound.total := full
      have here : task.number - 1 < bound.known := by omega
      simp only [Array.getElem?_append, Array.size_extract, Array.size_map]
      rw [if_pos (by omega), Array.getElem?_extract, Array.size_map, if_pos (by omega), Array.getElem?_map, Nat.zero_add]

theorem set_state_tasks (task : TaskId) (state : TaskState) (fills : lens.Fills table) (knows : lens.Knows task) :
    (lens.tasks table).setState task (lens.state state) = lens.tasks (table.setState task state) := by
  unfold TaskTable.setState Lens.tasks
  cases bounded : lens.bound with
  | none =>
    refine congrArg TaskTable.mk (Array.ext_getElem? fun place => ?_)
    simp only [Array.getElem?_map, Array.getElem?_setIfInBounds, Array.size_map]
    split
    · split <;> rfl
    · rfl
  | some bound =>
    obtain ⟨full, few⟩ := fills bound bounded
    obtain ⟨positive, within⟩ := knows bound bounded
    have size : table.states.size = bound.total := full
    refine congrArg TaskTable.mk (Array.ext_getElem? fun place => ?_)
    simp only [Array.getElem?_append, Array.getElem?_map, Array.getElem?_setIfInBounds, Array.size_map,
      Array.size_extract, Array.size_append, Array.getElem?_extract, Array.size_setIfInBounds, Nat.zero_add]
    grind

theorem consume_tasks (task : TaskId) (fills : lens.Fills table) (knows : lens.Knows task) :
    (lens.tasks table).consume task =
      (table.consume task).map fun taken => (taken.1.map lens.value, lens.tasks taken.2) := by
  unfold TaskTable.consume
  rw [lens.state_tasks table task fills knows]
  cases table.state? task with
  | none => rfl
  | some state =>
    cases state with
    | pending | consumed => rfl
    | ready value =>
      exact congrArg (fun later => Except.ok (some (lens.value value), later))
        (lens.set_state_tasks table task .consumed fills knows)

theorem settle_tasks (task : TaskId) (value : Value) (fills : lens.Fills table) (knows : lens.Knows task) :
    (lens.tasks table).settle task (lens.value value) = (table.settle task value).map lens.tasks := by
  unfold TaskTable.settle
  rw [lens.state_tasks table task fills knows]
  cases table.state? task with
  | none => rfl
  | some state =>
    cases state with
    | ready | consumed => rfl
    | pending => exact congrArg Except.ok (lens.set_state_tasks table task (.ready value) fills knows)

theorem create_tasks (all : lens.bound = none) : (lens.tasks table).create = (table.create.1, lens.tasks table.create.2) := by
  simp [TaskTable.create, Lens.tasks, all, Lens.state]

theorem all_known (all : lens.bound = none) (task : TaskId) : lens.Knows task := fun bound bounded => by
  cases all.symm.trans bounded

end Tasks

section Runners
variable (machine : Machine) (id : RunnerId)

def Own (id : RunnerId) : Prop := ∀ entry ∈ lens.outer, entry.1 ≠ lens.shift id

theorem own_created (number : Nat) : lens.Own ⟨number + 1⟩ := by
  intro entry member same
  have low := lens.outside entry member
  rw [same] at low
  simp only [Lens.shift] at low
  omega

@[simp] theorem shift_inj (other : RunnerId) : lens.shift id = lens.shift other ↔ id = other := by
  obtain ⟨number⟩ := id
  obtain ⟨other⟩ := other
  simp [Lens.shift]

theorem runner_machine (own : lens.Own id) :
    (lens.machine machine).runner? (lens.shift id) = (machine.runner? id).map lens.runner := by
  have outside : lens.outer.find? (fun entry => entry.1 = lens.shift id) = none := by
    rw [List.find?_eq_none]
    intro entry member
    simpa using own entry member
  simp only [Machine.runner?, Lens.machine, List.find?_append, outside, Option.none_or, List.find?_map, Option.map_map]
  have same : ((fun entry : RunnerId × Runner => decide (entry.1 = lens.shift id)) ∘ lens.entry) =
      fun entry => decide (entry.1 = id) := by
    funext entry
    simp [Lens.entry]
  rw [same]
  cases machine.runners.find? _ <;> rfl

theorem update_runner_machine (own : lens.Own id) (change twin : Runner → Runner)
    (natural : ∀ runner, twin (lens.runner runner) = lens.runner (change runner)) :
    (lens.machine machine).updateRunner (lens.shift id) twin = lens.machine (machine.updateRunner id change) := by
  have outside : lens.outer.map (fun entry => if entry.1 = lens.shift id then (entry.1, twin entry.2) else entry) =
      lens.outer := by
    refine List.map_congr_left (fun entry member => if_neg (own entry member)) |>.trans (List.map_id _)
  simp only [Machine.updateRunner, Lens.machine, List.map_append, outside, List.map_map]
  congr 2
  refine List.map_congr_left fun entry _ => ?_
  simp only [Function.comp_apply, Lens.entry, shift_inj]
  split
  · simp [natural]
  · rfl

theorem runner_returned_machine (own : lens.Own id) :
    (lens.machine machine).runnerReturned (lens.shift id) = machine.runnerReturned id := by
  unfold Machine.runnerReturned
  rw [lens.runner_machine machine id own]
  cases machine.runner? id with
  | none => rfl
  | some runner =>
    simp only [Option.map_some, Option.bind_some, Lens.runner]
    cases runner.functionFrame with
    | none => rfl
    | some frame => exact lens.has_returned_arena machine.frames frame

theorem swap_erase_machine (own : lens.Own id) (runners : List (RunnerId × Runner)) :
    Machine.swapErase (lens.shift id) (lens.outer ++ runners.map lens.entry) =
      lens.outer ++ (Machine.swapErase id runners).map lens.entry := by
  have outside : lens.outer.findIdx? (fun entry => entry.1 = lens.shift id) = none := by
    rw [List.findIdx?_eq_none_iff]
    intro entry listed
    simpa using own entry listed
  have same : ((fun entry : RunnerId × Runner => decide (entry.1 = lens.shift id)) ∘ lens.entry) =
      fun entry => decide (entry.1 = id) := by
    funext entry
    simp [Lens.entry]
  unfold Machine.swapErase
  rw [List.findIdx?_append, outside, List.findIdx?_map, same]
  cases place : runners.findIdx? (fun entry => decide (entry.1 = id)) with
  | none => rfl
  | some place =>
    have nonempty : runners ≠ [] := by
      rintro rfl
      cases place
    obtain ⟨last, ending⟩ := List.getLast?_isSome.mpr nonempty |> Option.isSome_iff_exists.mp
    have mapped : (lens.outer ++ runners.map lens.entry).getLast? = some (lens.entry last) := by
      rw [List.getLast?_append, List.getLast?_map, ending]
      rfl
    rw [mapped, ending]
    simp only [Option.map_some, Option.none_or]
    rw [Nat.add_comm, List.set_append_right _ _ (Nat.le_add_right _ _), Nat.add_sub_cancel_left, ← List.map_set,
      List.dropLast_append_of_ne_nil (by simpa using nonempty), List.map_dropLast]

end Runners

end Lens
end CoopScript
