import CoopScript.Proofs.Lens.Language
import CoopScript.Proofs.Lens.Same
import CoopScript.Proofs.Stage.Reachable

set_option autoImplicit false
namespace CoopScript

theorem Stage.Sound.fits {stage : Stage} (sound : stage.Sound) : stage.machine.Fits none := by
  have plain := sound.plain
  refine ⟨plain.classes.members, fun id frame found => ?_, plain.tasks, plain.classes.hidden,
    fun microtask listed actions same => ?_, fun entry listed turns next same => ?_⟩
  · have framePlain := plain.frames id frame found
    exact ⟨framePlain.bindings, framePlain.returned⟩
  · rcases plain.microtasks microtask listed with ⟨_, _, _, _, rfl⟩ | ⟨_, _, rfl⟩ <;> cases same
  · rw [sound.served.events] at listed
    obtain ⟨_, _, rfl⟩ := List.mem_map.mp listed
    cases same

theorem Machine.keeps_fits (machine : Machine) (known : Nat) (kept : machine.Keeps (Value.Within known))
    (all : known = machine.tasks.count) (microtasks : machine.microtasks = []) (events : machine.events = []) (named : Nat)
    (given : named ≤ machine.nextIdentity) :
    machine.Fits (some ⟨known, known, named⟩) :=
  ⟨kept.classes, fun id frame found => ⟨(kept.frames id frame found).1, (kept.frames id frame found).2⟩, kept.tasks,
    ⟨all.symm, Nat.le_refl _⟩, microtasks, events, given⟩

namespace Lens
variable (lens : Lens)

theorem cause_failure (failure : Failure) (cause : Cause) :
    (lens.failure failure).HasCause cause ↔ failure.HasCause cause := by
  cases failure with
  | missingFile => exact ⟨nofun, nofun⟩
  | fault diagnostic =>
    constructor
    · rintro ⟨_, same, rfl⟩
      cases same
      exact ⟨diagnostic, rfl, rfl⟩
    · rintro ⟨_, same, rfl⟩
      cases same
      exact ⟨_, rfl, rfl⟩

theorem failure_sharp (sharp : lens.blurs = false) (failure : Failure) : lens.failure failure = failure := by
  have spot : lens.spot = id := funext (lens.spot_sharp sharp)
  cases failure with
  | missingFile => rfl
  | fault diagnostic =>
    obtain ⟨cause, position, notes⟩ := diagnostic
    simp only [Lens.failure, spot, Option.map_id_fun, id, Failure.fault.injEq, Diagnostic.mk.injEq, true_and]
    exact (List.map_congr_left fun note _ => by cases note <;> rfl).trans notes.map_id

end Lens

namespace Outcome
variable {α β : Type} {lens : Lens} {see : α → β} {good : α → Prop} {outcome : Outcome α} {other : Outcome β}

theorem seen_timed (early late : Nat) (seen : outcome.Seen lens early late see good other) (after : Machine)
    (left : outcome.Leaves after) (few : ∀ bound, lens.bound = some bound → after.tasks.count ≤ bound.total) :
    ∃ ended, outcome = ended.pass early ∧ other = (lens.ending see ended).pass late ∧ after.Fits lens.bound ∧
      ∀ value, outcome = .done value after → good value := by
  cases seen with
  | done value machine fits fine =>
    rcases left with ⟨_, same⟩ | ⟨_, same⟩ <;> cases same
    refine ⟨.done value machine, rfl, rfl, (machine.fits_passed _ early).mpr fits, fun other same => ?_⟩
    cases same
    exact fine
  | failed failure machine fits =>
    rcases left with ⟨_, same⟩ | ⟨_, same⟩ <;> cases same
    exact ⟨.failed failure machine, rfl, rfl, (machine.fits_passed _ early).mpr fits, nofun⟩
  | outOfFuel => rcases left with ⟨_, same⟩ | ⟨_, same⟩ <;> cases same
  | short => rcases left with ⟨_, same⟩ | ⟨_, same⟩ <;> cases same
  | escaped _ _ bound bounded more => exact absurd (more after left) (Nat.not_lt.mpr (few bound bounded))

theorem pass_none (outcome : Outcome α) : outcome.pass 0 = outcome := by cases outcome <;> rfl

theorem seen_ending (seen : outcome.Seen lens 0 0 see good other) (after : Machine) (left : outcome.Leaves after)
    (few : ∀ bound, lens.bound = some bound → after.tasks.count ≤ bound.total) :
    other = lens.ending see outcome ∧ after.Fits lens.bound ∧ ∀ value, outcome = .done value after → good value := by
  obtain ⟨ended, same, seen, fits⟩ := seen_timed 0 0 seen after left few
  rw [pass_none] at same seen
  exact ⟨same ▸ seen, fits⟩

end Outcome

namespace Lens
variable {α : Type}

-- All is seen as it is, but a run may have had more fuel.
def whole : Lens where
  blurs := false
  deaf _ := false
  offset := 0
  outer := []
  bound := none
  extra := []
  exact := False
  outside := none_outside
  hears := none_deaf

@[simp] theorem whole_value (value : Value) : whole.value value = value :=
  whole.value_same rfl value (value.bears_all _ fun _ => rfl)

@[simp] theorem whole_bindings (bindings : Bindings) : whole.bindings bindings = bindings :=
  whole.bindings_same bindings fun entry _ => whole_value entry.2

@[simp] theorem whole_machine (machine : Machine) : whole.machine machine = machine := by
  have kept : machine.Keeps fun value => whole.value value = value := machine.keeps_all whole_value
  have tasks : whole.tasks machine.tasks = machine.tasks := congrArg TaskTable.mk (whole.states_same _ kept.tasks)
  rw [whole.machine_same rfl rfl rfl machine kept, tasks]

-- With more fuel a run that ends does so in the same way.
theorem more_fuel {given : Option Bound → Prop} {good : Option Bound → α → Prop} {see : α → α} {step twin : Exec α}
    (through : step.Through whole given twin see good) (same : ∀ value, see value = value) (plain : given none)
    (machine after : Machine) (fits : machine.Fits none) (left : (step machine).Leaves after) :
    twin machine = step machine := by
  have ended := (Outcome.seen_ending (through.seen plain plain machine fits fits) after left nofun).1
  rw [whole_machine] at ended
  rw [ended]
  cases step machine with
  | done value after => rw [ending, same, whole_machine]
  | failed failure after => rw [ending, whole.failure_sharp rfl, whole_machine]
  | outOfFuel => rfl

end Lens
end CoopScript
