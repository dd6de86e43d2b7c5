import CoopScript.Proofs.Lens.Memory

set_option autoImplicit false
namespace CoopScript

namespace Value

mutual

def bears (test : Nat → Bool) : Value → Bool
  | ⟨_, ⟨members⟩, _, data⟩ => membersBear test members && dataBears test data

def membersBear (test : Nat → Bool) : List (String × Value) → Bool
  | [] => true
  | (_, member) :: rest => member.bears test && membersBear test rest

def dataBears (test : Nat → Bool) : Data Value → Bool
  | .array _ items => itemsBear test items
  | .function identity _ => test identity
  | .none => true
  | .void => true
  | .number _ => true
  | .text _ => true
  | .flag _ => true
  | .promise _ => true

def itemsBear (test : Nat → Bool) : List Value → Bool
  | [] => true
  | item :: rest => item.bears test && itemsBear test rest

end

variable (test : Nat → Bool)

mutual

theorem bears_all (all : ∀ identity, test identity = true) : (value : Value) → value.bears test = true
  | ⟨_, ⟨members⟩, _, data⟩ => by simp only [bears, members_bear all members, data_bears all data, Bool.and_self]

theorem members_bear (all : ∀ identity, test identity = true) : (members : List (String × Value)) →
    membersBear test members = true
  | [] => rfl
  | (_, member) :: rest => by simp only [membersBear, bears_all all member, members_bear all rest, Bool.and_self]

theorem data_bears (all : ∀ identity, test identity = true) : (data : Data Value) → dataBears test data = true
  | .array _ items => by simp only [dataBears, items_bear all items]
  | .function identity _ => all identity
  | .none => rfl
  | .void => rfl
  | .number _ => rfl
  | .text _ => rfl
  | .flag _ => rfl
  | .promise _ => rfl

theorem items_bear (all : ∀ identity, test identity = true) : (items : List Value) → itemsBear test items = true
  | [] => rfl
  | item :: rest => by simp only [itemsBear, bears_all all item, items_bear all rest, Bool.and_self]

end

variable (other : Nat → Bool)

mutual

theorem bears_weaken (weaker : ∀ identity, test identity = true → other identity = true) :
    (value : Value) → value.bears test = true → value.bears other = true
  | ⟨_, ⟨members⟩, _, data⟩, bears => by
    simp only [Value.bears, Bool.and_eq_true] at bears ⊢
    exact ⟨members_weaken weaker members bears.1, data_weaken weaker data bears.2⟩

theorem members_weaken (weaker : ∀ identity, test identity = true → other identity = true) :
    (members : List (String × Value)) → membersBear test members = true → membersBear other members = true
  | [], _ => rfl
  | (_, member) :: rest, bear => by
    simp only [membersBear, Bool.and_eq_true] at bear ⊢
    exact ⟨bears_weaken weaker member bear.1, members_weaken weaker rest bear.2⟩

theorem data_weaken (weaker : ∀ identity, test identity = true → other identity = true) :
    (data : Data Value) → dataBears test data = true → dataBears other data = true
  | .array _ items, bears => items_weaken weaker items bears
  | .function identity _, bears => weaker identity bears
  | .none, _ => rfl
  | .void, _ => rfl
  | .number _, _ => rfl
  | .text _, _ => rfl
  | .flag _, _ => rfl
  | .promise _, _ => rfl

theorem items_weaken (weaker : ∀ identity, test identity = true → other identity = true) :
    (items : List Value) → itemsBear test items = true → itemsBear other items = true
  | [], _ => rfl
  | item :: rest, bear => by
    simp only [itemsBear, Bool.and_eq_true] at bear ⊢
    exact ⟨bears_weaken weaker item bear.1, items_weaken weaker rest bear.2⟩

end

end Value

-- What holds of every value that scripts can get out of a machine.
structure Machine.Keeps (holds : Value → Prop) (machine : Machine) : Prop where
  classes : ∀ info ∈ machine.classes.classes, info.members.All holds
  frames : machine.frames.Holds fun _ frame => frame.bindings.All holds ∧ ∀ value ∈ frame.returned, holds value
  tasks : ∀ task value, machine.tasks.state? task = some (.ready value) → holds value
  runners : ∀ entry ∈ machine.runners, ∀ value ∈ entry.2.last, holds value

namespace Machine
variable {holds other : Value → Prop} (machine : Machine)

theorem keeps_weaken (kept : machine.Keeps holds) (weaker : ∀ value, holds value → other value) : machine.Keeps other :=
  ⟨fun info listed entry member => weaker entry.2 (kept.classes info listed entry member),
    fun id frame found => ⟨fun entry member => weaker entry.2 ((kept.frames id frame found).1 entry member),
      fun value returned => weaker value ((kept.frames id frame found).2 value returned)⟩,
    fun task value ready => weaker value (kept.tasks task value ready),
    fun entry listed value last => weaker value (kept.runners entry listed value last)⟩

theorem keeps_all (all : ∀ value, holds value) : machine.Keeps holds :=
  ⟨fun _ _ entry _ => all entry.2, fun _ _ _ => ⟨fun entry _ => all entry.2, fun value _ => all value⟩,
    fun _ value _ => all value, fun _ _ value _ => all value⟩

end Machine

namespace Lens
variable (lens : Lens)

theorem bindings_same (bindings : Bindings) (same : bindings.All fun value => lens.value value = value) :
    lens.bindings bindings = bindings := by
  obtain ⟨entries⟩ := bindings
  have each : ∀ entry ∈ entries, (fun entry : String × Value => (entry.1, lens.value entry.2)) entry = id entry :=
    fun entry member => Prod.ext rfl (same entry member)
  exact congrArg NameMap.mk ((List.map_congr_left each).trans entries.map_id)

theorem option_same {α : Type} (change : α → α) (found : Option α) (same : ∀ value ∈ found, change value = value) :
    found.map change = found := by
  cases found with
  | none => rfl
  | some value => exact congrArg some (same value rfl)

theorem array_same {α : Type} (change : α → α) (items : Array α)
    (same : ∀ (index : Nat) (item : α), items[index]? = some item → change item = item) : items.map change = items := by
  refine Array.ext_getElem? fun index => ?_
  rw [Array.getElem?_map]
  exact option_same change _ fun item found => same index item found

theorem arena_same (arena : Arena) (kept : arena.Holds fun _ frame =>
    frame.bindings.All (fun value => lens.value value = value) ∧ ∀ value ∈ frame.returned, lens.value value = value) :
    lens.arena arena = arena := by
  have slots : arena.slots.map lens.slot = arena.slots := by
    refine array_same lens.slot arena.slots fun index slot found => ?_
    obtain ⟨generation, held⟩ := slot
    refine congrArg (Slot.mk generation) (option_same lens.frame held ?_)
    rintro frame rfl
    obtain ⟨bindings, returned⟩ := kept ⟨index, generation⟩ frame (by simp [Arena.frame?, found])
    unfold Lens.frame
    rw [lens.bindings_same _ bindings, option_same lens.value _ returned]
  unfold Lens.arena
  rw [slots]

theorem classes_same (table : ClassTable)
    (kept : ∀ info ∈ table.classes, info.members.All fun value => lens.value value = value) :
    lens.classes table = table := by
  obtain ⟨classes, byName⟩ := table
  refine congrArg (ClassTable.mk · byName) (array_same lens.classInfo classes fun index info found => ?_)
  have members := lens.bindings_same info.members (kept info (Array.mem_of_getElem? found))
  unfold Lens.classInfo
  rw [show info.members.map lens.value = info.members from members]

theorem states_same (table : TaskTable)
    (kept : ∀ task value, table.state? task = some (.ready value) → lens.value value = value) :
    table.states.map lens.state = table.states := by
  refine array_same lens.state table.states fun index state found => ?_
  cases state with
  | ready value => exact congrArg TaskState.ready (kept ⟨index + 1⟩ value (by simpa [TaskTable.state?] using found))
  | pending | consumed => rfl

theorem tasks_same (table : TaskTable)
    (kept : ∀ task value, table.state? task = some (.ready value) → lens.value value = value) (bound : Bound)
    (bounded : lens.bound = some bound) (all : bound.known = table.count) :
    lens.tasks table = ⟨table.states ++ lens.extra.toArray⟩ := by
  have full : table.states.extract 0 table.count = table.states := by rw [TaskTable.count, Array.extract_size]
  unfold Lens.tasks
  simp only [bounded, lens.states_same table kept, all, full]

theorem function_same (sharp : lens.blurs = false) (content : Function Value) : lens.function false content = content := by
  obtain ⟨name, parameters, body, isAsync⟩ := content
  cases body <;> simp [Lens.function, Lens.body, lens.lines_sharp sharp]

mutual

theorem value_same (sharp : lens.blurs = false) : (value : Value) →
    value.bears (fun identity => !lens.deaf identity) = true → lens.value value = value
  | ⟨_, ⟨members⟩, _, data⟩, heard => by
    simp only [Value.bears, Bool.and_eq_true] at heard
    simp only [Lens.value, members_same sharp members heard.1, data_same sharp data heard.2]

theorem members_same (sharp : lens.blurs = false) : (members : List (String × Value)) →
    Value.membersBear (fun identity => !lens.deaf identity) members = true → lens.members members = members
  | [], _ => rfl
  | (_, member) :: rest, heard => by
    simp only [Value.membersBear, Bool.and_eq_true] at heard
    simp only [Lens.members, value_same sharp member heard.1, members_same sharp rest heard.2]

theorem data_same (sharp : lens.blurs = false) : (data : Data Value) →
    Value.dataBears (fun identity => !lens.deaf identity) data = true → lens.data data = data
  | .array _ items, heard => by
    simp only [Value.dataBears] at heard
    simp only [Lens.data, items_same sharp items heard]
  | .function identity content, heard => by
    simp only [Value.dataBears, Bool.not_eq_true'] at heard
    simp only [Lens.data, heard, lens.function_same sharp content]
  | .none, _ => rfl
  | .void, _ => rfl
  | .number _, _ => rfl
  | .text _, _ => rfl
  | .flag _, _ => rfl
  | .promise _, _ => rfl

theorem items_same (sharp : lens.blurs = false) : (items : List Value) →
    Value.itemsBear (fun identity => !lens.deaf identity) items = true → lens.items items = items
  | [], _ => rfl
  | item :: rest, heard => by
    simp only [Value.itemsBear, Bool.and_eq_true] at heard
    simp only [Lens.items, value_same sharp item heard.1, items_same sharp rest heard.2]

end

theorem machine_sharp (sharp : lens.blurs = false) (machine : Machine)
    (kept : machine.Keeps fun value => lens.value value = value) :
    lens.machine machine = { machine with
      tasks := lens.tasks machine.tasks
      ready := machine.ready.map lens.line
      runners := lens.outer ++ machine.runners.map lens.entry
      runnerCount := machine.runnerCount + lens.offset } := by
  have microtasks : machine.microtasks.map lens.microtask = machine.microtasks := by
    refine (List.map_congr_left fun task _ => ?_).trans machine.microtasks.map_id
    cases task <;> simp [Lens.microtask, lens.lines_sharp sharp]
  simp only [Lens.machine, lens.classes_same _ kept.classes, lens.arena_same _ kept.frames, microtasks]

-- A machine is seen as it is but for its tasks, if no runners are put before its own and its functions are heard.
theorem machine_same (sharp : lens.blurs = false) (near : lens.offset = 0) (alone : lens.outer = []) (machine : Machine)
    (kept : machine.Keeps fun value => lens.value value = value) :
    lens.machine machine = { machine with tasks := lens.tasks machine.tasks } := by
  have shift (key : RunnerId) : lens.shift key = key := by simp [Lens.shift, near]
  have ready : machine.ready.map lens.line = machine.ready := by
    refine (List.map_congr_left fun line _ => ?_).trans machine.ready.map_id
    simp [Lens.line, shift, lens.node_sharp sharp]
  have runners : machine.runners.map lens.entry = machine.runners := by
    refine (List.map_congr_left fun entry listed => ?_).trans machine.runners.map_id
    have last := option_same lens.value _ (kept.runners entry listed)
    simp [Lens.entry, Lens.runner, shift, lens.lines_sharp sharp, last]
  rw [lens.machine_sharp sharp machine kept]
  simp only [ready, runners, near, alone, List.nil_append, Nat.add_zero]

end Lens
end CoopScript
