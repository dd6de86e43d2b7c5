import CoopScript.Proofs.Frame.Keeping
import CoopScript.Proofs.Lens.Through

set_option autoImplicit false
namespace CoopScript
variable {bound : Option Bound}

def Data.Fits : Option Bound → Data Value → Prop
  | Option.none, data => data.Plain
  | some bound, data => (∀ identity items, data = .array identity items → ∀ item ∈ items, item.Within bound.known) ∧
      ∀ task, data = .promise task → 0 < task.number ∧ task.number ≤ bound.known

def TaskId.Known (bound : Option Bound) (task : TaskId) : Prop :=
  ∀ few, bound = some few → 0 < task.number ∧ task.number ≤ few.known

namespace Value
variable {value : Value} (fits : value.Fits bound)
include fits

theorem fits_member (name : String) (member : Value) (found : value.member? name = some member) : member.Fits bound := by
  cases bound with
  | none => exact value.plain_member fits name member found
  | some few => exact within_member few.known value fits name member found

theorem fits_items (items : List Value) (found : value.items? = some items) : ∀ item ∈ items, item.Fits bound := by
  cases bound with
  | none => exact value.plain_items fits items found
  | some few => exact within_items few.known value fits items found

theorem fits_array (identity : Nat) (items : List Value) (data : value.data = .array identity items) :
    ∀ item ∈ items, item.Fits bound :=
  fits_items fits items (by unfold items?; rw [data])

theorem fits_task (task : TaskId) (found : value.task? = some task) : task.Known bound := by
  rintro few rfl
  exact within_task few.known value fits task found

end Value

namespace Data

theorem fits_simple (data : Data Value) (items : ∀ identity items, data ≠ .array identity items)
    (function : ∀ identity function, data ≠ .function identity function) (promise : ∀ task, data ≠ .promise task) :
    data.Fits bound := by
  cases bound with
  | none =>
    exact ⟨fun identity content same => absurd same (items identity content),
      fun identity content same => absurd same (function identity content)⟩
  | some few =>
    exact ⟨fun identity content same => absurd same (items identity content),
      fun task same => absurd same (promise task)⟩

theorem fits_array (identity : Nat) (items : List Value) (fits : ∀ item ∈ items, item.Fits bound) :
    (array identity items : Data Value).Fits bound := by
  cases bound with
  | none =>
    refine ⟨fun _ _ same => ?_, fun _ _ same => (by cases same)⟩
    cases same
    exact fits
  | some few =>
    refine ⟨fun _ _ same => ?_, fun _ same => by cases same⟩
    cases same
    exact fits

theorem fits_function (identity : Nat) (content : Function Value) (ordinary : content.Ordinary) :
    (function identity content : Data Value).Fits bound := by
  cases bound with
  | none =>
    refine ⟨fun _ _ same => (by cases same), fun _ _ same => ?_⟩
    cases same
    exact ordinary
  | some few => exact ⟨fun _ _ same => (by cases same), fun _ same => by cases same⟩

theorem fits_promise (task : TaskId) (known : task.Known bound) : (promise task : Data Value).Fits bound := by
  cases bound with
  | none => exact ⟨fun _ _ same => (by cases same), fun _ _ same => by cases same⟩
  | some few =>
    refine ⟨fun _ _ same => (by cases same), fun _ same => ?_⟩
    cases same
    exact known few rfl

end Data

namespace Arena

def Fits (bound : Option Bound) (arena : Arena) : Prop := arena.Holds fun _ frame => frame.Fits bound

variable {arena after : Arena}

theorem fits_keeps : arena.Fits bound ↔ arena.Keeps (Value.Fits bound) :=
  ⟨fun fits id frame found => ⟨(fits id frame found).bindings, (fits id frame found).returned⟩,
    fun kept id frame found => ⟨(kept id frame found).1, (kept id frame found).2⟩⟩

variable (fits : arena.Fits bound)
include fits

theorem fits_retain (id : FrameId) (done : arena.retain id = .ok after) : after.Fits bound :=
  fits_keeps.mpr (keeps_retain (fits_keeps.mp fits) id done)

theorem fits_release (id : FrameId) : (arena.release id).1.Fits bound :=
  fits_keeps.mpr (keeps_release (fits_keeps.mp fits) id)

theorem fits_push (parent id : FrameId) (isFunction : Bool) (bindings : Bindings) (fine : bindings.Fits bound)
    (done : arena.push parent isFunction bindings = .ok (id, after)) : after.Fits bound :=
  fits_keeps.mpr (keeps_push (fits_keeps.mp fits) parent id isFunction bindings fine done)

theorem fits_look_up (id : FrameId) (name : String) (value : Value) (done : arena.lookUp id name = .ok value) :
    value.Fits bound :=
  keeps_look_up (fits_keeps.mp fits) id name value done

theorem fits_set_variable (id : FrameId) (name : String) (value : Value) (fine : value.Fits bound)
    (done : arena.setVariable id name value = .ok after) : after.Fits bound :=
  fits_keeps.mpr (keeps_set_variable (fits_keeps.mp fits) id name value fine done)

theorem fits_assign (id : FrameId) (name : String) (value : Value) (fine : value.Fits bound)
    (done : arena.assign id name value = .ok after) : after.Fits bound :=
  fits_keeps.mpr (keeps_assign (fits_keeps.mp fits) id name value fine done)

theorem fits_set_return (id : FrameId) (value : Value) (fine : value.Fits bound)
    (done : arena.setReturn id value = .ok after) : after.Fits bound :=
  fits_keeps.mpr (keeps_set_return (fits_keeps.mp fits) id value fine done)

theorem fits_take_return (id : FrameId) (value : Option Value) (done : arena.takeReturn id = .ok (value, after)) :
    GivenFits bound value ∧ after.Fits bound :=
  (keeps_take_return (fits_keeps.mp fits) id value done).imp_right fits_keeps.mpr

end Arena

namespace Machine

theorem suits_same (machine after : Machine) (classes : after.classes = machine.classes)
    (count : after.tasks.count = machine.tasks.count) (microtasks : after.microtasks = machine.microtasks)
    (events : after.events = machine.events) (named : machine.nextIdentity ≤ after.nextIdentity)
    (suits : machine.Suits bound) : after.Suits bound := by
  cases bound with
  | none => exact ⟨classes ▸ suits.1, microtasks ▸ suits.2.1, events ▸ suits.2.2⟩
  | some few =>
    exact ⟨⟨count.trans suits.1.1, suits.1.2⟩, microtasks.trans suits.2.1, events.trans suits.2.2.1,
      suits.2.2.2.trans named⟩

variable {machine : Machine} (fits : machine.Fits bound)
include fits

theorem fits_instantiate (id : ClassId) (data : Data Value) (fine : data.Fits bound) :
    (machine.classes.instantiate id data).Fits bound := by
  unfold ClassTable.instantiate
  cases found : machine.classes.get? id with
  | none =>
    cases bound with
    | none => exact .intro _ (NameMap.all_empty Value.Plain) (NameMap.all_empty Member.Ordinary) fine.1 fine.2
    | some few => exact .intro _ (List.forall_mem_nil _) fine.1 fine.2
  | some info =>
    have listed : info ∈ machine.classes.classes := Array.mem_of_getElem? found
    cases bound with
    | none => exact .intro _ (fits.classes info listed) (fits.suits.1 info listed) fine.1 fine.2
    | some few => exact .intro _ (fits.classes info listed) fine.1 fine.2

theorem fits_scalar (scalar : Scalar) : (machine.classes.scalar scalar).Fits bound := by
  cases scalar <;> exact fits_instantiate fits _ _ (Data.fits_simple _ (by simp) (by simp) (by simp))

theorem fits_frames (frames : Arena) (fine : frames.Fits bound) : { machine with frames := frames }.Fits bound :=
  ⟨fits.classes, fine, fits.tasks, suits_same machine _ rfl rfl rfl rfl (Nat.le_refl _) fits.suits⟩

theorem fits_tasks (tasks : TaskTable) (fine : ∀ task value, tasks.state? task = some (.ready value) → value.Fits bound)
    (count : tasks.count = machine.tasks.count) : { machine with tasks := tasks }.Fits bound :=
  ⟨fits.classes, fits.frames, fine, suits_same machine _ rfl count rfl rfl (Nat.le_refl _) fits.suits⟩

theorem fits_same (after : Machine) (classes : after.classes = machine.classes) (frames : after.frames = machine.frames)
    (tasks : after.tasks = machine.tasks)
    (microtasks : after.microtasks = machine.microtasks) (events : after.events = machine.events)
    (named : machine.nextIdentity ≤ after.nextIdentity) : after.Fits bound :=
  ⟨classes ▸ fits.classes, frames ▸ fits.frames, tasks ▸ fits.tasks,
    suits_same machine after classes (congrArg TaskTable.count tasks) microtasks events named fits.suits⟩

end Machine

-- A run ends in a machine that fits, with no task fewer, and if it is a run for a line, with the same lines ready.
def Outcome.Fits {α : Type} (bound : Option Bound) (line : Prop) (before : Machine) (good : α → Prop) : Outcome α → Prop
  | .done value machine => machine.Fits bound ∧ before.Grows line machine ∧ good value
  | .failed _ machine => machine.Fits bound ∧ before.Grows line machine
  | .outOfFuel => True

def Lens.ending {α β : Type} (lens : Lens) (see : α → β) : Outcome α → Outcome β
  | .done value machine => .done (see value) (lens.machine machine)
  | .failed failure machine => .failed (lens.failure failure) (lens.machine machine)
  | .outOfFuel => .outOfFuel

def Outcome.pass {α : Type} (delay : Nat) : Outcome α → Outcome α
  | .done value machine => .done value (machine.pass delay)
  | .failed failure machine => .failed failure (machine.pass delay)
  | .outOfFuel => .outOfFuel

namespace Exec
variable {α β : Type} {lens : Lens} {given : Option Bound → Prop} {see : α → β} {good : Option Bound → α → Prop}

theorem through_natural (step : Exec α) (twin : Exec β)
    (natural : ∀ (machine : Machine) (early late : Nat), given lens.bound → lens.Shifts early late →
      machine.Fits lens.bound → step (machine.pass early) = (step machine).pass early ∧
        twin ((lens.machine machine).pass late) = (lens.ending see (step machine)).pass late)
    (fits : ∀ (bound : Option Bound) (machine : Machine), given bound → machine.Fits bound →
      (step machine).Fits bound lens.Inside machine (good bound)) : step.Through lens given twin see good := by
  refine ⟨fun plain machine tame => ?_, fun _ fine machine early late shifts _ fit => ?_⟩
  · have kept := fits none machine plain tame
    generalize step machine = outcome at kept ⊢
    cases outcome <;> exact kept
  · obtain ⟨same, seen⟩ := natural machine early late fine shifts fit
    rw [same, seen]
    have kept := fits lens.bound machine fine fit
    generalize step machine = outcome at kept ⊢
    cases outcome with
    | done value after => exact .done value after kept.1 kept.2.2
    | failed failure after => exact .failed failure after kept.1
    | outOfFuel => exact .outOfFuel

theorem through_never (step : Exec α) (twin : Exec β) (never : ¬ given none) : step.Through lens given twin see good :=
  ⟨fun plain => absurd plain never, fun plain => absurd plain never⟩

end Exec
end CoopScript
