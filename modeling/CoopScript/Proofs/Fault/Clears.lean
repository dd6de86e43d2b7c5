import CoopScript.Proofs.Fault.Bound
import CoopScript.Proofs.Fault.Source

/-!
Steps that do not fail over the interpreter itself: from machines of scripts, in which every promise is for a task that there
is, they lead to such machines, and whatever they fail over is the script's own.
-/
set_option autoImplicit false
namespace CoopScript

def Failure.Clean (failure : Failure) : Prop := ∀ cause, failure.HasCause cause → cause.isInternal = false

theorem Failure.clean_of (cause : Cause) (clean : cause.isInternal = false) : (Failure.of cause).Clean :=
  fun other same => Exec.cause_of cause other same ▸ clean

theorem Cause.refusal_clean (cause : Cause) (refusal : cause.isRefusal = true) : cause.isInternal = false := by
  cases cause <;> first | rfl | cases refusal

-- A value of a script in which all promises are for the first tasks of this number.
structure Value.Sure (count : Nat) (value : Value) : Prop where
  tame : value.Tame .full
  within : value.Within count

theorem Value.sure_more (count more : Nat) (value : Value) (fewer : count ≤ more) (sure : value.Sure count) :
    value.Sure more :=
  ⟨sure.tame, value.within_more count more fewer sure.within⟩

def Outcome.Clears {α : Type} (count : Nat) (good : Nat → α → Prop) : Outcome α → Prop
  | .done value machine =>
    machine.Tame .full ∧ machine.Within ∧ count ≤ machine.tasks.count ∧ good machine.tasks.count value
  | .failed failure machine => machine.Tame .full ∧ machine.Within ∧ failure.Clean
  | .outOfFuel => True

namespace Stage

structure Clear (stage : Stage) : Prop where
  fit : stage.Fit .full
  within : stage.machine.Within

def count (stage : Stage) : Nat := stage.machine.tasks.count

def Clears {α : Type} (stage : Stage) (good : Nat → α → Prop) (step : Exec α) : Prop :=
  stage.Follows (fun _ => True) step ∧ (step stage.machine).Clears stage.count good

end Stage

-- From every stage with so many tasks, the step ends with a good value or fails over the script. The frame is one
-- that is held as long as the step runs.
def Exec.Clears {α : Type} (count : Nat) (frame : FrameId) (good : Nat → α → Prop) (step : Exec α) : Prop :=
  ∀ stage : Stage, stage.Clear → frame ∈ stage.firm → stage.count = count → stage.Clears good step

namespace Stage
variable {α β : Type} {good : Nat → α → Prop} {fine : Nat → β → Prop} {step : Exec α} (stage : Stage)

theorem clears_left (clear : stage.Clear) (clears : stage.Clears good step) (after : Machine)
    (left : (step stage.machine).Leaves after) : (stage.put after).Clear := by
  obtain ⟨follows, outcome⟩ := clears
  unfold Follows at follows
  rcases left with ⟨value, ran⟩ | ⟨failure, ran⟩ <;> rw [ran] at follows outcome
  · exact ⟨stage.reaches_fit clear.fit after follows.1 outcome.1, outcome.2.1⟩
  · exact ⟨stage.breaks_fit clear.fit failure after follows outcome.1, outcome.2.1⟩

theorem clears_done (clears : stage.Clears good step) (value : α) (after : Machine)
    (done : step stage.machine = .done value after) :
    stage.Reaches step after ∧ stage.count ≤ after.tasks.count ∧ good after.tasks.count value := by
  obtain ⟨follows, outcome⟩ := clears
  unfold Follows at follows
  rw [done] at follows outcome
  exact ⟨follows.1, outcome.2.2⟩

theorem outcome_clears_bind (clear : stage.Clear) (next : α → Exec β) (clears : stage.Clears good step)
    (later : ∀ value machine, step stage.machine = .done value machine → stage.Reaches step machine →
      (stage.put machine).Clear → stage.count ≤ machine.tasks.count → good machine.tasks.count value →
      (next value machine).Clears machine.tasks.count fine) :
    ((step >>= next) stage.machine).Clears stage.count fine := by
  cases ran : step stage.machine with
  | done value machine =>
    obtain ⟨reaches, more, fineValue⟩ := stage.clears_done clears value machine ran
    have rest := later value machine ran reaches (stage.clears_left clear clears machine (.inl ⟨value, ran⟩)) more fineValue
    rw [Exec.bind_done step next _ _ value ran]
    cases final : next value machine with
    | done result last =>
      rw [final] at rest
      exact ⟨rest.1, rest.2.1, more.trans rest.2.2.1, rest.2.2.2⟩
    | failed failure last =>
      rw [final] at rest
      exact rest
    | outOfFuel => trivial
  | failed failure machine =>
    have outcome := clears.2
    rw [ran] at outcome
    rw [Exec.bind_failed step next _ _ failure ran]
    exact outcome
  | outOfFuel =>
    rw [Exec.bind_exhausted step next _ ran]
    trivial

theorem clears_bind (clear : stage.Clear) (next : α → Exec β) (clears : stage.Clears good step)
    (later : ∀ value machine, step stage.machine = .done value machine → stage.Reaches step machine →
      (stage.put machine).Clear → stage.count ≤ machine.tasks.count → good machine.tasks.count value →
      (stage.put machine).Clears fine (next value)) : stage.Clears fine (step >>= next) := by
  constructor
  · refine Exec.follows_bind stage clear.fit.sound (fun _ => True) _ step next clears.1 fun value machine done _ _ _ => ?_
    obtain ⟨reaches, more, fineValue⟩ := stage.clears_done clears value machine done
    exact (later value machine done reaches (stage.clears_left clear clears machine (.inl ⟨value, done⟩)) more fineValue).1
  · exact stage.outcome_clears_bind clear next clears fun value machine done reaches machineClear more fineValue =>
      (later value machine done reaches machineClear more fineValue).2

theorem clears_look (clear : stage.Clear) (view : Machine → α) (next : α → Exec β)
    (later : stage.Clears fine (next (view stage.machine))) : stage.Clears fine (Exec.read view >>= next) :=
  ⟨Exec.follows_look stage clear.fit.sound _ view next later.1, later.2⟩

end Stage

namespace Exec
variable {α β σ : Type} {count : Nat} {frame : FrameId} {good : Nat → α → Prop} {fine : Nat → β → Prop} {step : Exec α}

theorem clears_lawful {lawfully : α → Prop} (lawful : step.Lawful lawfully)
    (clears : ∀ stage : Stage, stage.Clear → frame ∈ stage.firm → stage.count = count →
      (step stage.machine).Clears stage.count good) : step.Clears count frame good :=
  fun stage clear held counted =>
    ⟨lawful_weaken lawfully _ step lawful (fun _ _ => trivial) stage clear.fit.sound, clears stage clear held counted⟩

theorem clears_bind (next : α → Exec β) (clears : step.Clears count frame good)
    (later : ∀ more value, count ≤ more → good more value → (next value).Clears more frame fine) :
    (step >>= next).Clears count frame fine := by
  intro stage clear held counted
  refine stage.clears_bind clear next (clears stage clear held counted) ?_
  intro value machine _ reaches machineClear more fineValue
  exact later _ value (counted ▸ more) fineValue _ machineClear
    ((stage.firm_put machine reaches.registered frame).mpr held) rfl

theorem clears_weaken {better : Nat → α → Prop} (clears : step.Clears count frame better)
    (weaker : ∀ more value, count ≤ more → better more value → good more value) : step.Clears count frame good := by
  intro stage clear held counted
  obtain ⟨follows, outcome⟩ := clears stage clear held counted
  refine ⟨follows, ?_⟩
  cases ran : step stage.machine with
  | done value machine =>
    rw [ran] at outcome
    exact ⟨outcome.1, outcome.2.1, outcome.2.2.1, weaker _ value (counted ▸ outcome.2.2.1) outcome.2.2.2⟩
  | failed failure machine =>
    rw [ran] at outcome
    exact outcome
  | outOfFuel => trivial

-- The outermost frame is always held.
theorem clears_here (clears : step.Clears count Arena.root good) : step.Clears count frame good :=
  fun stage clear _ counted => clears stage clear stage.root_firm counted

theorem clears_pure (value : α) (fineValue : good count value) : (Pure.pure value : Exec α).Clears count frame good :=
  clears_lawful (lawful_pure (fun _ => True) value trivial) fun stage clear _ counted =>
    ⟨clear.fit.tame, clear.within, Nat.le_refl _, show good stage.count value from counted.symm ▸ fineValue⟩

theorem clears_read (view : Machine → α)
    (fineValue : ∀ machine : Machine, machine.Tame .full → machine.Within → good machine.tasks.count (view machine)) :
    (read view).Clears count frame good :=
  clears_lawful (lawful_seen view) fun stage clear _ _ =>
    ⟨clear.fit.tame, clear.within, Nat.le_refl _, fineValue stage.machine clear.fit.tame clear.within⟩

theorem clears_seen (view : Machine → α) : (read view).Clears count frame fun _ _ => True :=
  clears_read view fun _ _ _ => trivial

theorem clears_raise (failure : Failure) (other : ¬ failure.IsStranding) (clean : failure.Clean) :
    (raise failure : Exec α).Clears count frame good :=
  clears_lawful (lawful_raise (fun _ => True) failure other) fun _ clear _ _ => ⟨clear.fit.tame, clear.within, clean⟩

theorem clears_fail (cause : Cause) (refusal : cause.isRefusal = true) : (fail cause : Exec α).Clears count frame good :=
  clears_raise _ (not_stranding cause (cause.refusal_settles refusal))
    (Failure.clean_of cause (cause.refusal_clean refusal))

theorem clears_fail_at (cause : Cause) (position : Position) (refusal : cause.isRefusal = true) :
    (failAt cause position : Exec α).Clears count frame good :=
  clears_raise _ (not_stranding_located cause position (cause.refusal_settles refusal))
    fun other same => cause_located cause other position same ▸ cause.refusal_clean refusal

theorem clears_stop (cause : Cause) (next : α → Exec β) (refusal : cause.isRefusal = true) :
    ((fail cause : Exec α) >>= next).Clears count frame fine := by
  have stopped : (fail cause : Exec α).Clears count frame fun _ _ => False := clears_fail cause refusal
  exact clears_bind next stopped fun _ _ _ impossible => impossible.elim

theorem clears_exhausted : (exhausted : Exec α).Clears count frame good :=
  clears_lawful (lawful_exhausted fun _ => True) fun _ _ _ _ => trivial

theorem clears_map_failure (change : Failure → Failure)
    (sameCause : ∀ failure cause, (change failure).HasCause cause → failure.HasCause cause)
    (clears : step.Clears count frame good) : (step.mapFailure change).Clears count frame good := by
  intro stage clear held counted
  obtain ⟨follows, outcome⟩ := clears stage clear held counted
  refine ⟨follows_map_failure stage _ change step sameCause follows, ?_⟩
  unfold mapFailure
  cases ran : step stage.machine with
  | done value machine =>
    rw [ran] at outcome
    exact outcome
  | failed failure machine =>
    rw [ran] at outcome
    exact ⟨outcome.1, outcome.2.1, fun cause same => outcome.2.2 cause (sameCause failure cause same)⟩
  | outOfFuel => trivial

theorem clears_iterate (step : σ → Exec (σ ⊕ α))
    (clears : ∀ more state, count ≤ more →
      (step state).Clears more frame fun most => Sum.elim (fun _ => True) (good most))
    (fuel : Nat) (state : σ) : (iterate step fuel state).Clears count frame good := by
  induction fuel generalizing count state with
  | zero => exact clears_exhausted
  | succ fuel ih =>
    rw [iterate_unrolled]
    refine clears_bind _ (clears count state (Nat.le_refl _)) fun more result fewer fineResult => ?_
    cases result with
    | inl next => exact ih (fun most state fewerStill => clears most state (fewer.trans fewerStill)) next
    | inr value => exact clears_pure value fineResult

end Exec

end CoopScript
