import CoopScript.Machine.Scheduler
import CoopScript.Proofs.Stage.Memory

set_option autoImplicit false
namespace CoopScript

mutual

def Operand.mild : Operand → Bool
  | .array items => Operand.allMild items
  | .carrying _ data => data.mild
  | .native _ _ recipe => recipe.mild
  | _ => true

def Operand.allMild : List Operand → Bool
  | [] => true
  | item :: rest => item.mild && Operand.allMild rest

def Operand.namedMild : List (String × Operand) → Bool
  | [] => true
  | (_, item) :: rest => item.mild && Operand.namedMild rest

def Operand.givenMild : Option Operand → Bool
  | none => true
  | some value => value.mild

def Recipe.mild : Recipe → Bool
  | .const value => value.mild
  | .perform actions => Action.allMild actions
  | _ => true

def Recipe.namedMild : List (String × Recipe) → Bool
  | [] => true
  | (_, recipe) :: rest => recipe.mild && Recipe.namedMild rest

def Action.mild : Action → Bool
  | .settleTask .. => false
  | .enqueueMicrotask actions => Action.allMild actions
  | .registerEvent _ turns => Turn.allMild turns
  | .pushFunctionFrame _ _ bindings => Operand.namedMild bindings
  | .setVariable _ _ value | .assignVariable _ _ value | .setReturn _ value | .store _ value | .setMember _ _ value
  | .setHidden _ _ value | .memberOf value _ | .membersOf value | .isFunction value | .isVoid value | .textOf value _
  | .truthOf value _ => value.mild
  | .areEqual left right | .operate _ left right => left.mild && right.mild
  | .defineClass _ _ _ members hidden hooks =>
    Operand.namedMild members && Operand.namedMild hidden && Recipe.namedMild hooks
  | .call function target _ _ => function.mild && Operand.givenMild target
  | .invoke function target bindings _ => function.mild && Operand.givenMild target && Operand.namedMild bindings
  | _ => true

def Action.allMild : List Action → Bool
  | [] => true
  | action :: rest => action.mild && Action.allMild rest

def Turn.mild : Turn → Bool
  | .mk actions _ => Action.allMild actions

def Turn.allMild : List Turn → Bool
  | [] => true
  | turn :: rest => turn.mild && Turn.allMild rest

end

theorem Action.all_mild_iff (actions : List Action) :
    Action.allMild actions = true ↔ ∀ action ∈ actions, action.mild = true := by
  induction actions with
  | nil => simp [allMild]
  | cons action rest ih => simp [allMild, ih]

theorem Turn.all_mild_iff (turns : List Turn) : Turn.allMild turns = true ↔ ∀ turn ∈ turns, turn.mild = true := by
  induction turns with
  | nil => simp [allMild]
  | cons turn rest ih => simp [allMild, ih]

-- The turn that comes next is one of them, or one that does nothing.
theorem Microevent.turn_mild (turns : List Turn) (next : Nat) (mild : Turn.allMild turns = true) :
    (Microevent.turn turns next).mild = true := by
  have each := (Turn.all_mild_iff turns).mp mild
  unfold turn
  cases found : turns[next]? with
  | some turn => exact each turn (List.mem_of_getElem? found)
  | none =>
    cases last : turns.getLast? with
    | some turn => exact each turn (List.mem_of_getLast? last)
    | none => rfl

-- No code of a host that settles tasks can be reached from the value.
inductive Value.Mild : Value → Prop where
  | intro (value : Value) (members : ∀ entry ∈ value.members.entries, Mild entry.2)
      (hookConstants : ∀ entry ∈ value.hidden.entries, ∀ constant,
        entry.2 = .hook (.behaviour (.const constant)) → Mild constant)
      (hookActions : ∀ entry ∈ value.hidden.entries, ∀ actions,
        entry.2 = .hook (.behaviour (.perform actions)) → Action.allMild actions = true)
      (items : ∀ identity items, value.data = .array identity items → ∀ item ∈ items, Mild item)
      (constants : ∀ identity function constant, value.data = .function identity function →
        function.body = .native (.behaviour (.const constant)) → Mild constant)
      (actions : ∀ identity function actions, value.data = .function identity function →
        function.body = .native (.behaviour (.perform actions)) → Action.allMild actions = true) : Mild value

structure Behaviour.Mild (code : Behaviour Value) : Prop where
  constant : ∀ value, code = .const value → value.Mild
  actions : ∀ actions, code = .perform actions → Action.allMild actions = true

def Native.Mild (native : Native Value) : Prop := ∀ code, native = .behaviour code → code.Mild

def Member.Mild (member : Member Value) : Prop := ∀ code, member = .hook (.behaviour code) → code.Mild

structure Data.Mild (data : Data Value) : Prop where
  items : ∀ identity items, data = .array identity items → ∀ item ∈ items, item.Mild
  native : ∀ identity function code, data = .function identity function → function.body = .native code → code.Mild

namespace Value
variable (value : Value)

theorem mild_of_parts (members : value.members.All Value.Mild) (hidden : value.hidden.All Member.Mild)
    (data : value.data.Mild) : value.Mild :=
  .intro value members (fun entry member constant same => (hidden entry member _ same).constant constant rfl)
    (fun entry member actions same => (hidden entry member _ same).actions actions rfl) data.items
    (fun identity function constant shape body => (data.native identity function _ shape body _ rfl).constant constant rfl)
    fun identity function actions shape body => (data.native identity function _ shape body _ rfl).actions actions rfl

variable (mild : value.Mild)
include mild

theorem mild_members : value.members.All Value.Mild := by
  cases mild with
  | intro _ members => exact members

theorem mild_hidden : value.hidden.All Member.Mild := by
  cases mild with
  | intro _ _ constants actions =>
    intro entry member code same
    exact ⟨fun constant isConst => constants entry member constant (same.trans (isConst ▸ rfl)),
      fun content performs => actions entry member content (same.trans (performs ▸ rfl))⟩

theorem mild_data : value.data.Mild := by
  cases mild with
  | intro _ _ _ _ items constants actions =>
    refine ⟨items, fun identity function code shape body => ?_⟩
    intro behaviour same
    subst same
    exact ⟨fun constant isConst => constants identity function constant shape (isConst ▸ body),
      fun content performs => actions identity function content shape (performs ▸ body)⟩

theorem mild_member (name : String) (member : Value) (found : value.member? name = some member) : member.Mild :=
  NameMap.all_found Value.Mild value.members (mild_members value mild) name member found

theorem mild_hook (name : String) (code : Behaviour Value)
    (found : value.hidden? name = some (.hook (.behaviour code))) : code.Mild :=
  NameMap.all_found Member.Mild value.hidden (mild_hidden value mild) name _ found code rfl

theorem mild_items (items : List Value) (found : value.items? = some items) : ∀ item ∈ items, item.Mild := by
  unfold items? at found
  split at found
  next identity content shape =>
    cases found
    exact (mild_data value mild).items identity items shape
  next => cases found

theorem mild_native (function : Function Value) (code : Native Value) (found : value.function? = some function)
    (body : function.body = .native code) : code.Mild := by
  unfold function? at found
  split at found
  next identity content shape =>
    cases found
    exact (mild_data value mild).native identity function code shape body
  next => cases found

theorem mild_set_member (name : String) (member : Value) (memberMild : member.Mild) :
    (value.setMember name member).Mild :=
  mild_of_parts _ (NameMap.all_insert Value.Mild value.members (mild_members value mild) name member memberMild)
    (mild_hidden value mild) (mild_data value mild)

theorem mild_set_hidden (name : String) (member : Value) : (value.setHidden name (.value member)).Mild :=
  mild_of_parts _ (mild_members value mild)
    (NameMap.all_insert Member.Mild value.hidden (mild_hidden value mild) name (.value member) fun _ same => by
      cases same)
    (mild_data value mild)

omit mild

-- What scripts bring forth by themselves has nothing of a host's in it.
theorem plain_mild (plain : value.Plain) : value.Mild := by
  induction plain with
  | intro value _ hidden _ function members items =>
    refine mild_of_parts value members (fun entry member code same => absurd same (hidden entry member code)) ⟨items, ?_⟩
    intro identity content code shape body behaviour same
    obtain ⟨builtin, other⟩ := function identity content shape code body
    cases same.symm.trans other

end Value

structure ClassTable.Mild (table : ClassTable) : Prop where
  members : ∀ info ∈ table.classes, info.members.All Value.Mild
  hidden : ∀ info ∈ table.classes, info.hidden.All Member.Mild

namespace ClassTable

theorem plain_mild (table : ClassTable) (plain : table.Plain) : table.Mild :=
  ⟨fun info known entry member => entry.2.plain_mild (plain.members info known entry member),
    fun info known entry member code same => absurd same (plain.hidden info known entry member code)⟩

variable (table : ClassTable) (mild : table.Mild)
include mild

theorem mild_instance (id : ClassId) (data : Data Value) (dataMild : data.Mild) : (table.instantiate id data).Mild := by
  unfold instantiate
  cases found : table.get? id with
  | none => exact Value.mild_of_parts _ (NameMap.all_empty _) (NameMap.all_empty _) dataMild
  | some info =>
    have known := Array.mem_of_getElem? found
    exact Value.mild_of_parts _ (mild.members info known) (mild.hidden info known) dataMild

-- Data with no values in them.
theorem mild_simple (id : ClassId) (data : Data Value) (simple : (∀ identity items, data ≠ .array identity items) ∧
    ∀ identity function, data ≠ .function identity function) : (table.instantiate id data).Mild :=
  mild_instance table mild id data ⟨fun identity items same => absurd same (simple.1 identity items),
    fun identity function _ same => absurd same (simple.2 identity function)⟩

theorem mild_scalar (scalar : Scalar) : (table.scalar scalar).Mild := by
  cases scalar with
  | void => exact mild_simple table mild .void .void (by simp)
  | number x => exact mild_simple table mild .number (.number x) (by simp)
  | text text => exact mild_simple table mild .string (.text text) (by simp)
  | flag flag => exact mild_simple table mild .boolean (.flag flag) (by simp)

theorem mild_promise (task : TaskId) : (table.promise task).Mild := mild_simple table mild .promise (.promise task) (by simp)

theorem mild_array (identity : Nat) (items : List Value) (itemsMild : ∀ item ∈ items, item.Mild) :
    (table.array identity items).Mild :=
  mild_instance table mild _ _ ⟨fun _ _ same => (by cases same; exact itemsMild), fun _ _ _ same => by cases same⟩

theorem mild_function (identity : Nat) (function : Function Value)
    (native : ∀ code, function.body = .native code → code.Mild) : (table.function identity function).Mild :=
  mild_instance table mild _ _ ⟨fun _ _ same => (by cases same), fun _ _ code same body => by
    cases same
    exact native code body⟩

theorem mild_define (draft : ClassDraft) (members : draft.members.All Value.Mild) (hidden : draft.hidden.All Member.Mild)
    (id : ClassId) (after : ClassTable) (defined : table.define draft = .ok (id, after)) : after.Mild := by
  unfold define at defined
  split at defined
  next => cases defined
  next =>
    split at defined
    next => cases defined
    next =>
      cases defined
      have completeMembers := all_merge Value.Mild table ClassInfo.members draft.ancestors draft.members mild.members members
      have completeHidden := all_merge Member.Mild table ClassInfo.hidden draft.ancestors draft.hidden mild.hidden hidden
      constructor
      · intro info member
        rcases Array.mem_push.mp member with known | rfl
        · exact mild.members info known
        · exact completeMembers
      · intro info member
        rcases Array.mem_push.mp member with known | rfl
        · exact mild.hidden info known
        · exact completeHidden

end ClassTable

structure Frame.Mild (frame : Frame) : Prop where
  bindings : frame.bindings.All Value.Mild
  returned : ∀ value, frame.returned = some value → value.Mild

-- A host may have let go of frames more often than it holds them, so this is said of slots and not of frames by name.
def Arena.Mild (arena : Arena) : Prop := ∀ slot ∈ arena.slots, ∀ frame, slot.frame = some frame → frame.Mild

namespace Arena
variable (arena after : Arena) (mild : arena.Mild)
include mild

theorem mild_found (id : FrameId) (frame : Frame) (found : arena.frame? id = some frame) : frame.Mild := by
  unfold frame? at found
  split at found
  next slot read =>
    split at found
    next => exact mild slot (Array.mem_of_getElem? read) frame found
    next => cases found
  next => cases found

theorem mild_set_frame (index : Nat) (frame : Frame) (frameMild : frame.Mild) : (arena.setFrame index frame).Mild := by
  intro slot member content same
  obtain ⟨place, bound, rfl⟩ := Array.mem_iff_getElem.mp member
  simp only [setFrame, Array.getElem_modify] at same
  split at same
  next =>
    cases same
    exact frameMild
  next => exact mild _ (Array.getElem_mem _) content same

theorem mild_vacate (index : Nat) : (arena.vacate index).Mild := by
  intro slot member content same
  obtain ⟨place, bound, rfl⟩ := Array.mem_iff_getElem.mp member
  simp only [vacate, Array.getElem_modify] at same
  split at same
  next => cases same
  next => exact mild _ (Array.getElem_mem _) content same

theorem mild_update (id : FrameId) (change : Frame → Frame) (kept : ∀ frame, frame.Mild → (change frame).Mild)
    (updated : arena.update id change = .ok after) : after.Mild := by
  unfold update at updated
  split at updated
  next frame found =>
    cases updated
    exact mild_set_frame arena mild id.index _ (kept frame (mild_found arena mild id frame found))
  next => cases updated

theorem mild_retain (id : FrameId) (retained : arena.retain id = .ok after) : after.Mild :=
  mild_update arena after mild id (fun frame => { frame with holds := frame.holds + 1 })
    (fun _ frameMild => ⟨frameMild.bindings, frameMild.returned⟩) retained

theorem mild_push (parent id : FrameId) (isFunction : Bool) (bindings : Bindings) (bindingsMild : bindings.All Value.Mild)
    (pushed : arena.push parent isFunction bindings = .ok (id, after)) : after.Mild := by
  unfold push at pushed
  cases retained : arena.retain parent with
  | error cause => simp [retained, Except.map] at pushed
  | ok middle =>
    have middleMild := mild_retain arena middle mild parent retained
    have fresh : (Frame.fresh (some parent) isFunction bindings).Mild := ⟨bindingsMild, fun _ none => by cases none⟩
    simp only [retained, Except.map, Except.ok.injEq] at pushed
    unfold allocate at pushed
    split at pushed
    next index free _ =>
      cases pushed
      exact mild_set_frame middle middleMild index _ fresh
    next =>
      cases pushed
      intro slot member content same
      rcases Array.mem_push.mp member with known | rfl
      · exact middleMild slot known content same
      · cases same
        exact fresh

theorem mild_release_chain (fuel : Nat) (id : FrameId) : (arena.releaseChain fuel id).1.Mild := by
  induction fuel generalizing arena id with
  | zero => exact mild
  | succ fuel ih =>
    unfold releaseChain
    split
    next => exact mild
    next frame found =>
      have frameMild := mild_found arena mild id frame found
      split
      · exact mild_set_frame arena mild id.index _ ⟨frameMild.bindings, frameMild.returned⟩
      · split
        · exact ih _ (mild_vacate arena mild id.index) _
        · exact mild_vacate arena mild id.index

theorem mild_look_up (id : FrameId) (name : String) (value : Value) (found : arena.lookUp id name = .ok value) :
    value.Mild := by
  unfold lookUp at found
  split at found
  next answer searched =>
    cases found
    obtain ⟨place, frame, known, bound⟩ := search_found arena _ arena.reach id value searched
    exact NameMap.all_found Value.Mild frame.bindings (mild_found arena mild place frame known).bindings name value bound
  next => cases found
  next => cases found

theorem mild_set_variable (id : FrameId) (name : String) (value : Value) (valueMild : value.Mild)
    (bound : arena.setVariable id name value = .ok after) : after.Mild :=
  mild_update arena after mild id (fun frame => { frame with bindings := frame.bindings.insert name value })
    (fun frame frameMild =>
      ⟨NameMap.all_insert Value.Mild frame.bindings frameMild.bindings name value valueMild, frameMild.returned⟩) bound

theorem mild_assign (id : FrameId) (name : String) (value : Value) (valueMild : value.Mild)
    (bound : arena.assign id name value = .ok after) : after.Mild := by
  unfold assign at bound
  split at bound
  next target _ => exact mild_set_variable arena after mild target name value valueMild bound
  next => cases bound

theorem mild_set_return (id : FrameId) (value : Value) (valueMild : value.Mild)
    (returned : arena.setReturn id value = .ok after) : after.Mild := by
  unfold setReturn at returned
  split at returned
  next function _ =>
    exact mild_update arena after mild function (fun frame => { frame with returned := some value })
      (fun frame frameMild => ⟨frameMild.bindings, fun other same => Option.some.inj same ▸ valueMild⟩) returned
  next => cases returned
  next => cases returned

theorem mild_take_return (id : FrameId) (result : Option Value) (taken : arena.takeReturn id = .ok (result, after)) :
    after.Mild ∧ ∀ value, result = some value → value.Mild := by
  unfold takeReturn at taken
  split at taken
  next frame found =>
    cases taken
    have frameMild := mild_found arena mild id frame found
    exact ⟨mild_set_frame arena mild id.index _ ⟨frameMild.bindings, fun _ none => by cases none⟩, frameMild.returned⟩
  next => cases taken

end Arena

end CoopScript
