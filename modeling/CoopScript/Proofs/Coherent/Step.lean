import CoopScript.Proofs.Fault.Bound
import CoopScript.Proofs.Frame.Keeping
import CoopScript.Proofs.Lens.Same

/-!
Values that nobody has made up. The promises in them are for tasks that there are, and their functions have identities that
have been given away. As neither tasks nor identities are ever taken back, a value stays one of them.
-/
set_option autoImplicit false
namespace CoopScript

-- How many tasks have been made, and how many identities given away.
structure Extent where
  tasks : Nat
  identities : Nat

instance : Preorder Extent where
  le fewer more := fewer.tasks ≤ more.tasks ∧ fewer.identities ≤ more.identities
  le_refl _ := ⟨Nat.le_refl _, Nat.le_refl _⟩
  le_trans _ _ _ fewer more := ⟨Nat.le_trans fewer.1 more.1, Nat.le_trans fewer.2 more.2⟩

namespace Value
variable (test : Nat → Bool)

theorem members_bear_iff (members : List (String × Value)) :
    membersBear test members = true ↔ ∀ entry ∈ members, entry.2.bears test = true := by
  induction members with
  | nil => simp [membersBear]
  | cons entry rest ih => simp [membersBear, ih]

theorem items_bear_iff (items : List Value) : itemsBear test items = true ↔ ∀ item ∈ items, item.bears test = true := by
  induction items with
  | nil => simp [itemsBear]
  | cons item rest ih => simp [itemsBear, ih]

theorem bears_iff (value : Value) : value.bears test = true ↔
    (∀ entry ∈ value.members.entries, entry.2.bears test = true) ∧ dataBears test value.data = true := by
  obtain ⟨_, ⟨members⟩, _, data⟩ := value
  rw [bears, Bool.and_eq_true, members_bear_iff]

-- A value of a script that could be there when so much has been made.
structure Known (extent : Extent) (value : Value) : Prop where
  plain : value.Plain
  within : value.Within extent.tasks
  born : value.bears (fun identity => identity < extent.identities) = true

variable {extent more : Extent} {value : Value}

theorem known_more (fewer : extent ≤ more) (known : value.Known extent) : value.Known more := by
  refine ⟨known.plain, value.within_more _ _ fewer.1 known.within, ?_⟩
  refine value.bears_weaken _ _ (fun identity less => ?_) known.born
  exact decide_eq_true (Nat.lt_of_lt_of_le (of_decide_eq_true less) fewer.2)

theorem known_member (known : value.Known extent) (name : String) (member : Value)
    (found : value.member? name = some member) : member.Known extent :=
  ⟨value.plain_member known.plain name member found, value.within_member _ known.within name member found,
    NameMap.all_found (fun member : Value => member.bears (fun identity => identity < extent.identities) = true) value.members
      ((bears_iff _ value).mp known.born).1 name member found⟩

theorem known_array (known : value.Known extent) (identity : Nat) (items : List Value) (data : value.data = .array identity items) :
    ∀ item ∈ items, item.Known extent := by
  intro item listed
  have found : value.items? = some items := by unfold items?; rw [data]
  refine ⟨value.plain_items known.plain items found item listed, value.within_items _ known.within items found item listed, ?_⟩
  have born := ((bears_iff _ value).mp known.born).2
  rw [data] at born
  exact (items_bear_iff _ items).mp born item listed

end Value

-- Data of which a value can be made that could be there.
structure Data.Known (extent : Extent) (data : Data Value) : Prop where
  items : ∀ identity items, data = .array identity items → ∀ item ∈ items, item.Known extent
  function : ∀ identity content, data = .function identity content → identity < extent.identities ∧ content.Ordinary
  promise : ∀ task, data = .promise task → 0 < task.number ∧ task.number ≤ extent.tasks

namespace ClassTable

theorem intrinsic_born (id : ClassId) (info : ClassInfo) (found : intrinsic.get? id = some info) :
    Value.membersBear (fun identity => identity < firstIdentity) info.members.entries = true := by
  have all : intrinsic.classes.all (fun info =>
      Value.membersBear (fun identity => identity < firstIdentity) info.members.entries) = true := by
    decide +kernel
  exact Array.all_eq_true_iff_forall_mem.mp all info (Array.mem_of_getElem? found)

variable {extent : Extent} (begun : firstIdentity ≤ extent.identities)
include begun

theorem intrinsic_known (info : ClassInfo) (listed : info ∈ intrinsic.classes) : info.members.All (Value.Known extent) := by
  obtain ⟨index, _, rfl⟩ := Array.mem_iff_getElem.mp listed
  have found : intrinsic.get? ⟨index⟩ = some intrinsic.classes[index] := Array.getElem?_eq_getElem _
  have told := intrinsic_tells ⟨index⟩ _ found
  simp only [tells, Bool.and_eq_true] at told
  intro entry member
  have born : Value.membersBear (fun identity => identity < extent.identities) intrinsic.classes[index].members.entries = true := by
    refine Value.members_weaken _ _ (fun identity less => ?_) _ (intrinsic_born ⟨index⟩ _ found)
    exact decide_eq_true (Nat.lt_of_lt_of_le (of_decide_eq_true less) begun)
  exact ⟨plain_intrinsic.members _ listed entry member, Value.all_native_within _ _ told.1.1 entry member,
    (Value.members_bear_iff _ _).mp born entry member⟩

theorem known_instance (id : ClassId) (data : Data Value) (known : data.Known extent) :
    (intrinsic.instantiate id data).Known extent := by
  refine ⟨intrinsic.plain_instantiate plain_intrinsic id data ⟨fun identity items same item listed => ?_, fun identity content same => ?_⟩,
    within_instance _ id data (fun identity items same item listed => ?_) known.promise, ?_⟩
  · exact (known.items identity items same item listed).plain
  · exact (known.function identity content same).2
  · exact (known.items identity items same item listed).within
  have born : Value.dataBears (fun identity => identity < extent.identities) data = true := by
    cases data with
    | array identity items =>
      exact (Value.items_bear_iff _ items).mpr fun item listed => (known.items identity items rfl item listed).born
    | function identity content => exact decide_eq_true (known.function identity content rfl).1
    | _ => rfl
  rw [Value.bears_iff]
  unfold instantiate
  cases found : intrinsic.get? id with
  | none => exact ⟨List.forall_mem_nil _, born⟩
  | some info =>
    refine ⟨(Value.members_bear_iff _ _).mp (Value.members_weaken _ _ (fun identity less => ?_) _ (intrinsic_born id info found)), born⟩
    exact decide_eq_true (Nat.lt_of_lt_of_le (of_decide_eq_true less) begun)

theorem known_simple (id : ClassId) (data : Data Value) (simple : (∀ identity items, data ≠ .array identity items) ∧
    (∀ identity content, data ≠ .function identity content) ∧ ∀ task, data ≠ .promise task) :
    (intrinsic.instantiate id data).Known extent :=
  known_instance begun id data
    ⟨fun identity items same => absurd same (simple.1 identity items),
      fun identity content same => absurd same (simple.2.1 identity content), fun task same => absurd same (simple.2.2 task)⟩

theorem known_scalar (scalar : Scalar) : (intrinsic.scalar scalar).Known extent := by
  cases scalar with
  | void => exact known_simple begun .void .void (by simp)
  | number x => exact known_simple begun .number (.number x) (by simp)
  | text text => exact known_simple begun .string (.text text) (by simp)
  | flag flag => exact known_simple begun .boolean (.flag flag) (by simp)

theorem known_array (identity : Nat) (items : List Value) (known : ∀ item ∈ items, item.Known extent) :
    (intrinsic.array identity items).Known extent :=
  known_instance begun _ _
    ⟨fun _ _ same => (by cases same; exact known), fun _ _ same => (by cases same), fun _ same => by cases same⟩

theorem known_function (identity : Nat) (content : Function Value) (given : identity < extent.identities)
    (ordinary : content.Ordinary) : (intrinsic.function identity content).Known extent :=
  known_instance begun _ _
    ⟨fun _ _ same => (by cases same), fun _ _ same => (by cases same; exact ⟨given, ordinary⟩), fun _ same => by cases same⟩

theorem known_promise (task : TaskId) (positive : 0 < task.number) (within : task.number ≤ extent.tasks) :
    (intrinsic.promise task).Known extent :=
  known_instance begun _ _
    ⟨fun _ _ same => (by cases same), fun _ _ same => (by cases same), fun _ same => by cases same; exact ⟨positive, within⟩⟩

end ClassTable

def Machine.extent (machine : Machine) : Extent := ⟨machine.tasks.count, machine.nextIdentity⟩

-- All values that are kept could be there, and nothing of a host's own waits.
structure Machine.Coherent (machine : Machine) : Prop where
  classes : machine.classes = .intrinsic
  begun : ClassTable.firstIdentity ≤ machine.nextIdentity
  frames : machine.frames.Keeps (Value.Known machine.extent)
  tasks : ∀ task value, machine.tasks.state? task = some (.ready value) → value.Known machine.extent
  runners : ∀ entry ∈ machine.runners, ∀ value, entry.2.last = some value → value.Known machine.extent
  microtasks : ∀ microtask ∈ machine.microtasks, ∀ actions, microtask ≠ .host actions
  events : ∀ entry ∈ machine.events, ∀ turns next, entry.2 ≠ some (.host turns next)

-- A law on values, with all that has to be known of it. What holds of a value may depend on how much has been made,
-- and goes on to hold when there is more.
structure ValueLaw where
  Holds : Extent → Value → Prop
  plain : ∀ {extent : Extent} {value : Value}, Holds extent value → value.Plain
  more : ∀ {fewer more : Extent} {value : Value}, fewer ≤ more → Holds fewer value → Holds more value
  member : ∀ {extent : Extent} {value : Value}, Holds extent value → ∀ name member, value.member? name = some member →
    Holds extent member
  items : ∀ {extent : Extent} {value : Value}, Holds extent value → ∀ identity items, value.data = .array identity items →
    ∀ item ∈ items, Holds extent item
  scalar : ∀ {extent : Extent}, ClassTable.firstIdentity ≤ extent.identities → ∀ scalar,
    Holds extent (ClassTable.intrinsic.scalar scalar)
  array : ∀ {extent : Extent}, ClassTable.firstIdentity ≤ extent.identities → ∀ identity items,
    (∀ item ∈ items, Holds extent item) → Holds extent (ClassTable.intrinsic.array identity items)
  function : ∀ {extent : Extent}, ClassTable.firstIdentity ≤ extent.identities → ∀ identity content,
    identity < extent.identities → content.Ordinary → Holds extent (ClassTable.intrinsic.function identity content)
  promise : ∀ {extent : Extent}, ClassTable.firstIdentity ≤ extent.identities → ∀ task : TaskId,
    0 < task.number → task.number ≤ extent.tasks → Holds extent (ClassTable.intrinsic.promise task)

namespace ValueLaw

def known : ValueLaw where
  Holds := Value.Known
  plain := Value.Known.plain
  more := Value.known_more
  member := Value.known_member
  items := Value.known_array
  scalar := ClassTable.known_scalar
  array := ClassTable.known_array
  function := ClassTable.known_function
  promise := ClassTable.known_promise

variable (law : ValueLaw) {extent fewer more : Extent}

theorem items_found {value : Value} (holds : law.Holds extent value) (items : List Value) (found : value.items? = some items) :
    ∀ item ∈ items, law.Holds extent item := by
  unfold Value.items? at found
  split at found
  next identity content data =>
    cases found
    exact law.items holds identity items data
  next => cases found

end ValueLaw

-- All values that are kept abide by the law, and nothing of a host's own waits.
structure Machine.Abides (law : ValueLaw) (machine : Machine) : Prop where
  classes : machine.classes = .intrinsic
  begun : ClassTable.firstIdentity ≤ machine.nextIdentity
  frames : machine.frames.Keeps (law.Holds machine.extent)
  tasks : ∀ task value, machine.tasks.state? task = some (.ready value) → law.Holds machine.extent value
  runners : ∀ entry ∈ machine.runners, ∀ value, entry.2.last = some value → law.Holds machine.extent value
  microtasks : ∀ microtask ∈ machine.microtasks, ∀ actions, microtask ≠ .host actions
  events : ∀ entry ∈ machine.events, ∀ turns next, entry.2 ≠ some (.host turns next)

theorem Machine.coherent_iff (machine : Machine) : machine.Coherent ↔ machine.Abides .known :=
  ⟨fun kept => ⟨kept.classes, kept.begun, kept.frames, kept.tasks, kept.runners, kept.microtasks, kept.events⟩,
    fun kept => ⟨kept.classes, kept.begun, kept.frames, kept.tasks, kept.runners, kept.microtasks, kept.events⟩⟩

def Outcome.Abides {α : Type} (law : ValueLaw) (extent : Extent) (good : Extent → α → Prop) : Outcome α → Prop
  | .done value machine => machine.Abides law ∧ extent ≤ machine.extent ∧ good machine.extent value
  | .failed _ machine => machine.Abides law ∧ extent ≤ machine.extent
  | .outOfFuel => True

-- Begun where so much has been made, the step keeps to the law and ends with a good value.
def Exec.Abides {α : Type} (law : ValueLaw) (extent : Extent) (good : Extent → α → Prop) (step : Exec α) : Prop :=
  ∀ machine : Machine, machine.Abides law → machine.extent = extent → (step machine).Abides law extent good

namespace Outcome
variable {law : ValueLaw} {α β : Type} {extent fewer : Extent} {good : Extent → α → Prop} {fine : Extent → β → Prop}

theorem abides_left (outcome : Outcome α) (abides : outcome.Abides law extent good) (after : Machine)
    (left : outcome.Leaves after) : after.Abides law ∧ extent ≤ after.extent := by
  cases outcome with
  | done value machine =>
    obtain rfl := (done_leaves value machine after).mp left
    exact ⟨abides.1, abides.2.1⟩
  | failed failure machine =>
    obtain rfl := (failed_leaves failure machine after).mp left
    exact abides
  | outOfFuel => exact absurd left (exhausted_leaves after)

theorem abides_since (outcome : Outcome α) (less : fewer ≤ extent) (abides : outcome.Abides law extent good) :
    outcome.Abides law fewer good := by
  cases outcome with
  | done value machine => exact ⟨abides.1, less.trans abides.2.1, abides.2.2⟩
  | failed failure machine => exact ⟨abides.1, less.trans abides.2⟩
  | outOfFuel => trivial

theorem abides_bind (step : Exec α) (next : α → Exec β) (machine : Machine) (first : (step machine).Abides law extent good)
    (later : ∀ value after, after.Abides law → extent ≤ after.extent → good after.extent value →
      (next value after).Abides law after.extent fine) : ((step >>= next) machine).Abides law extent fine := by
  cases ran : step machine with
  | done value after =>
    rw [ran] at first
    rw [Exec.bind_done step next _ _ value ran]
    exact abides_since _ first.2.1 (later value after first.1 first.2.1 first.2.2)
  | failed failure after =>
    rw [ran] at first
    rw [Exec.bind_failed step next _ _ failure ran]
    exact first
  | outOfFuel =>
    rw [Exec.bind_exhausted step next _ ran]
    trivial

end Outcome

namespace Exec
variable {law : ValueLaw} {α β : Type} {extent : Extent} {good : Extent → α → Prop} {fine : Extent → β → Prop} {step : Exec α}

theorem abides_bind (next : α → Exec β) (abides : step.Abides law extent good)
    (later : ∀ more value, extent ≤ more → good more value → (next value).Abides law more fine) :
    (step >>= next).Abides law extent fine := fun machine machineAbides reaches =>
  Outcome.abides_bind step next machine (abides machine machineAbides reaches) fun value after afterAbides fewer fineValue =>
    later _ value fewer fineValue after afterAbides rfl

theorem abides_pure (value : α) (fineValue : good extent value) : (Pure.pure value : Exec α).Abides law extent good := by
  rintro machine machineAbides rfl
  exact ⟨machineAbides, le_refl _, fineValue⟩

theorem abides_read (view : Machine → α) (fineValue : ∀ machine : Machine, machine.Abides law → machine.extent = extent →
    good extent (view machine)) : (read view).Abides law extent good := by
  rintro machine machineAbides rfl
  exact ⟨machineAbides, le_refl _, fineValue machine machineAbides rfl⟩

theorem abides_seen (view : Machine → α) : (read view).Abides law extent fun _ _ => True := abides_read view fun _ _ _ => trivial

-- The rest of a step, where it matters that the machine is the one that has been looked at.
theorem abides_look (view : Machine → α) (next : α → Exec β) (later : ∀ machine : Machine, machine.Abides law →
    machine.extent = extent → (next (view machine) machine).Abides law extent fine) : (read view >>= next).Abides law extent fine :=
  later

theorem abides_raise (failure : Failure) : (raise failure : Exec α).Abides law extent good := by
  rintro machine machineAbides rfl
  exact ⟨machineAbides, le_refl _⟩

theorem abides_fail (cause : Cause) : (fail cause : Exec α).Abides law extent good := abides_raise _

theorem abides_exhausted : (exhausted : Exec α).Abides law extent good := fun _ _ _ => trivial

theorem abides_map_failure (change : Failure → Failure) (abides : step.Abides law extent good) :
    (step.mapFailure change).Abides law extent good := by
  intro machine machineAbides reaches
  have outcome := abides machine machineAbides reaches
  unfold mapFailure
  cases ran : step machine <;> rw [ran] at outcome <;> exact outcome

theorem abides_attempt (abides : step.Abides law extent good) :
    step.attempt.Abides law extent fun more outcome => ∀ value, outcome = .ok value → good more value := by
  intro machine machineAbides reaches
  have outcome := abides machine machineAbides reaches
  unfold attempt
  cases ran : step machine with
  | done value after =>
    rw [ran] at outcome
    exact ⟨outcome.1, outcome.2.1, fun other same => by cases same; exact outcome.2.2⟩
  | failed failure after =>
    rw [ran] at outcome
    exact ⟨outcome.1, outcome.2, fun other same => by cases same⟩
  | outOfFuel => trivial

theorem abides_of_outcome (outcome : Except Failure α) (fineValue : ∀ value, outcome = .ok value → good extent value) :
    (ofOutcome outcome).Abides law extent good := by
  cases outcome with
  | ok value => exact abides_pure value (fineValue value rfl)
  | error failure => exact abides_raise failure

theorem abides_each (action : β → Exec Unit) (items : List β)
    (abides : ∀ more item, extent ≤ more → item ∈ items → (action item).Abides law more fun _ _ => True) :
    (each action items).Abides law extent fun _ _ => True := by
  induction items generalizing extent with
  | nil => exact abides_pure () trivial
  | cons first rest ih =>
    refine abides_bind _ (abides extent first (le_refl _) List.mem_cons_self) fun more _ fewer _ => ?_
    exact ih fun most item fewerStill member => abides most item (fewer.trans fewerStill) (List.mem_cons_of_mem _ member)

theorem abides_modify (change : Machine → Machine)
    (kept : ∀ machine : Machine, machine.Abides law → (change machine).Abides law ∧ (change machine).extent = machine.extent) :
    (modify change).Abides law extent fun _ _ => True := by
  rintro machine machineAbides rfl
  obtain ⟨changed, same⟩ := kept machine machineAbides
  exact ⟨changed, same ▸ le_refl _, trivial⟩

end Exec

end CoopScript
