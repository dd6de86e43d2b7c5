import CoopScript.Proofs.Exit.Call
import CoopScript.Proofs.Work.Stems

set_option autoImplicit false
namespace CoopScript

def Cause.isTwice : Cause → Bool
  | settledTwice _ => true
  | _ => false

def Failure.Once (failure : Failure) : Prop := ∀ cause, failure.HasCause cause → cause.isTwice = false

theorem Failure.once_of (cause : Cause) (once : cause.isTwice = false) : (Failure.of cause).Once :=
  fun other same => Exec.cause_of cause other same ▸ once

-- The machine has changed in nothing that tasks depend on.
structure Machine.Aside (machine after : Machine) : Prop where
  tasks : after.tasks = machine.tasks
  queued : after.queued = machine.queued
  jobs : after.jobs = machine.jobs
  tidy : after.Tidy
  later : machine.Later after

namespace Machine
variable (machine middle after : Machine)

theorem aside_refl (tidy : machine.Tidy) : machine.Aside machine := ⟨rfl, rfl, rfl, tidy, machine.later_refl⟩

theorem aside_trans (first : machine.Aside middle) (second : middle.Aside after) : machine.Aside after :=
  ⟨second.tasks.trans first.tasks, second.queued.trans first.queued, second.jobs.trans first.jobs, second.tidy,
    machine.later_trans middle after first.later second.later⟩

end Machine

namespace Exec
variable {α β : Type}

def Tells (step : Exec α) (good : α → Prop) (moment : Moment) : Prop :=
  match step moment.machine with
  | .done value after => (∃ marks, step.Marks moment.machine marks after) ∧ good value
  | .failed failure after => (∃ marks, step.Marks moment.machine marks after) ∧ failure.Once
  | .outOfFuel => True

def Told (step : Exec α) (good : α → Prop) : Prop := ∀ moment : Moment, moment.Fine → step.Tells good moment

-- A step that tasks have nothing to do with, on machines that are tidy.
def Clean (step : Exec α) : Prop :=
  ∀ machine : Machine, machine.Tidy → match step machine with
    | .done _ after => machine.Aside after
    | .failed failure after => machine.Aside after ∧ failure.Once
    | .outOfFuel => True

theorem attempt_done (step : Exec α) (machine after : Machine) (value : α) (ran : step machine = .done value after) :
    step.attempt machine = .done (.ok value) after := by
  simp only [attempt, ran]

theorem attempt_failed (step : Exec α) (machine after : Machine) (failure : Failure)
    (ran : step machine = .failed failure after) : step.attempt machine = .done (.error failure) after := by
  simp only [attempt, ran]

section Tells
variable {good : α → Prop} {fine : β → Prop} (moment : Moment) (step : Exec α)

theorem tells_done (value : α) (after : Machine) (done : step moment.machine = .done value after)
    (tells : step.Tells good moment) : (∃ marks, step.Marks moment.machine marks after) ∧ good value := by
  simp only [Tells, done] at tells
  exact tells

theorem tells_failed (failure : Failure) (after : Machine) (failed : step moment.machine = .failed failure after)
    (tells : step.Tells good moment) : (∃ marks, step.Marks moment.machine marks after) ∧ failure.Once := by
  simp only [Tells, failed] at tells
  exact tells

theorem tells_left (after : Machine) (left : (step moment.machine).Leaves after) (tells : step.Tells good moment) :
    ∃ marks, step.Marks moment.machine marks after := by
  rcases left with ⟨value, done⟩ | ⟨failure, failed⟩
  · exact (tells_done moment step value after done tells).1
  · exact (tells_failed moment step failure after failed tells).1

theorem done_tells (value : α) (after : Machine) (marks : List Mark) (done : step moment.machine = .done value after)
    (made : step.Marks moment.machine marks after) (goodValue : good value) : step.Tells good moment := by
  simp only [Tells, done]
  exact ⟨⟨marks, made⟩, goodValue⟩

theorem failed_tells (failure : Failure) (after : Machine) (marks : List Mark)
    (failed : step moment.machine = .failed failure after) (made : step.Marks moment.machine marks after)
    (once : failure.Once) : step.Tells good moment := by
  simp only [Tells, failed]
  exact ⟨⟨marks, made⟩, once⟩

theorem exhausted_tells (ran : step moment.machine = .outOfFuel) : step.Tells good moment := by
  simp only [Tells, ran]

theorem tells_bind (next : α → Exec β) (momentFine : moment.Fine) (tells : step.Tells good moment)
    (later : ∀ value marks middle, step moment.machine = .done value middle → step.Marks moment.machine marks middle →
      Moment.Fine ⟨moment.bodies, moment.log ++ marks, middle⟩ → good value →
      (next value).Tells fine ⟨moment.bodies, moment.log ++ marks, middle⟩) : (step >>= next).Tells fine moment := by
  cases ran : step moment.machine with
  | done value middle =>
    obtain ⟨⟨marks, made⟩, goodValue⟩ := tells_done moment step value middle ran tells
    have middleFine := Moment.marks_fine step moment.machine middle marks made moment.bodies moment.log momentFine
    have rest := later value marks middle ran made middleFine goodValue
    have whole := bind_done step next moment.machine middle value ran
    -- The marks of what follows come after those of the first step.
    cases ended : next value middle with
    | done result after =>
      obtain ⟨⟨more, second⟩, fineResult⟩ := tells_done _ (next value) result after ended rest
      exact done_tells moment _ result after (marks ++ more) (whole.trans ended)
        (.done step next _ middle after value marks more ran made second) fineResult
    | failed failure after =>
      obtain ⟨⟨more, second⟩, once⟩ := tells_failed _ (next value) failure after ended rest
      exact failed_tells moment _ failure after (marks ++ more) (whole.trans ended)
        (.done step next _ middle after value marks more ran made second) once
    | outOfFuel => exact exhausted_tells moment _ (whole.trans ended)
  | failed failure middle =>
    obtain ⟨⟨marks, made⟩, once⟩ := tells_failed moment step failure middle ran tells
    exact failed_tells moment _ failure middle marks (bind_failed step next _ middle failure ran)
      (.failed step next _ middle failure marks ran made) once
  | outOfFuel => exact exhausted_tells moment _ (bind_exhausted step next _ ran)

theorem aside_marks (calm : step.Calm) (machine after : Machine) (left : (step machine).Leaves after)
    (aside : machine.Aside after) : step.Marks machine [] after :=
  .aside step machine after calm left ⟨aside.tidy, aside.later⟩

end Tells

section Clean
variable {step : Exec α}

theorem clean_left (clean : step.Clean) (machine after : Machine) (tidy : machine.Tidy)
    (left : (step machine).Leaves after) : machine.Aside after := by
  have here := clean machine tidy
  rcases left with ⟨_, ran⟩ | ⟨_, ran⟩ <;> rw [ran] at here
  · exact here
  · exact here.1

theorem clean_once (clean : step.Clean) (machine after : Machine) (failure : Failure) (tidy : machine.Tidy)
    (failed : step machine = .failed failure after) : failure.Once := by
  have here := clean machine tidy
  rw [failed] at here
  exact here.2

theorem clean_calm (clean : step.Clean) : step.Calm := fun machine after tidy left =>
  have aside := clean_left clean machine after tidy left
  ⟨aside.tasks, aside.queued, aside.jobs⟩

theorem clean_bind (next : α → Exec β) (clean : step.Clean) (later : ∀ value, (next value).Clean) :
    (step >>= next).Clean := by
  intro machine tidy
  have first := clean machine tidy
  cases ran : step machine with
  | done value middle =>
    rw [ran] at first
    have second := later value middle first.tidy
    rw [bind_done step next machine middle value ran]
    cases ended : next value middle with
    | done result after =>
      rw [ended] at second
      exact machine.aside_trans middle after first second
    | failed failure after =>
      rw [ended] at second
      exact ⟨machine.aside_trans middle after first second.1, second.2⟩
    | outOfFuel => trivial
  | failed failure middle =>
    rw [ran] at first
    rw [bind_failed step next machine middle failure ran]
    exact first
  | outOfFuel =>
    rw [bind_exhausted step next machine ran]
    trivial

theorem clean_read (view : Machine → α) : (read view).Clean := fun machine tidy => machine.aside_refl tidy

theorem clean_modify (change : Machine → Machine) (aside : ∀ machine : Machine, machine.Tidy → machine.Aside (change machine)) :
    (modify change).Clean := aside

theorem clean_each (action : β → Exec Unit) (items : List β) (clean : ∀ item, (action item).Clean) :
    (each action items).Clean := by
  induction items with
  | nil => exact clean_read fun _ => ()
  | cons first rest ih => exact clean_bind _ (clean first) fun _ => ih

theorem told_clean {good : α → Prop} (clean : step.Clean) (goodValue : ∀ (machine after : Machine) (value : α), machine.Tidy →
    step machine = .done value after → good value) : step.Told good := by
  intro moment momentFine
  have tidy := momentFine.tidy
  have made : ∀ after, (step moment.machine).Leaves after → step.Marks moment.machine [] after := fun after left =>
    aside_marks step (clean_calm clean) moment.machine after left (clean_left clean _ after tidy left)
  cases ran : step moment.machine with
  | done value after =>
    exact done_tells moment step value after [] ran (made after (.inl ⟨value, ran⟩)) (goodValue _ after value tidy ran)
  | failed failure after =>
    exact failed_tells moment step failure after [] ran (made after (.inr ⟨failure, ran⟩))
      (clean_once clean _ after failure tidy ran)
  | outOfFuel => exact exhausted_tells moment step ran

end Clean

-- The rest of a step, where it matters that the machine is the one that has been looked at.
theorem tells_look {fine : β → Prop} (moment : Moment) (momentFine : moment.Fine) (view : Machine → α) (next : α → Exec β)
    (tells : (next (view moment.machine)).Tells fine moment) : (read view >>= next).Tells fine moment := by
  have clean := clean_read view
  have looked : (read view).Marks moment.machine [] moment.machine :=
    aside_marks _ (clean_calm clean) _ _ (.inl ⟨_, rfl⟩) (moment.machine.aside_refl momentFine.tidy)
  cases ended : next (view moment.machine) moment.machine with
  | done result after =>
    obtain ⟨⟨more, made⟩, fineResult⟩ := tells_done moment _ result after ended tells
    exact done_tells moment _ result after ([] ++ more) ended (.done _ next _ _ after _ [] more rfl looked made) fineResult
  | failed failure after =>
    obtain ⟨⟨more, made⟩, once⟩ := tells_failed moment _ failure after ended tells
    exact failed_tells moment _ failure after ([] ++ more) ended (.done _ next _ _ after _ [] more rfl looked made) once
  | outOfFuel => exact exhausted_tells moment _ ended

variable {good : α → Prop} {fine : β → Prop} {step : Exec α}

theorem told_bind (next : α → Exec β) (told : step.Told good) (later : ∀ value, good value → (next value).Told fine) :
    (step >>= next).Told fine := fun moment momentFine =>
  tells_bind moment step next momentFine (told moment momentFine)
    fun value _ _ _ _ middleFine goodValue => later value goodValue _ middleFine

theorem told_weaken {better : α → Prop} (told : step.Told better) (weaker : ∀ value, better value → good value) :
    step.Told good := by
  intro moment momentFine
  have tells := told moment momentFine
  cases ran : step moment.machine with
  | done value after =>
    obtain ⟨⟨marks, made⟩, betterValue⟩ := tells_done moment step value after ran tells
    exact done_tells moment step value after marks ran made (weaker value betterValue)
  | failed failure after =>
    obtain ⟨⟨marks, made⟩, once⟩ := tells_failed moment step failure after ran tells
    exact failed_tells moment step failure after marks ran made once
  | outOfFuel => exact exhausted_tells moment step ran

theorem told_read (view : Machine → α) (goodValue : ∀ machine : Machine, machine.Tidy → good (view machine)) :
    (read view).Told good :=
  told_clean (clean_read view) fun machine after value tidy done => by
    cases done
    exact goodValue machine tidy

theorem told_pure (value : α) (goodValue : good value) : (Pure.pure value : Exec α).Told good :=
  told_read (fun _ => value) fun _ _ => goodValue

theorem told_seen (view : Machine → α) : (read view).Told fun _ => True := told_read view fun _ _ => trivial

theorem told_raise (failure : Failure) (once : failure.Once) : (raise failure : Exec α).Told good :=
  told_clean (fun machine tidy => ⟨machine.aside_refl tidy, once⟩) fun _ _ _ _ done => by cases done

theorem told_fail (cause : Cause) (once : cause.isTwice = false) : (fail cause : Exec α).Told good :=
  told_raise _ (Failure.once_of cause once)

theorem told_exhausted : (exhausted : Exec α).Told good := fun _ _ => trivial

theorem told_map_failure (change : Failure → Failure)
    (sameCause : ∀ failure cause, (change failure).HasCause cause → failure.HasCause cause) (told : step.Told good) :
    (step.mapFailure change).Told good := by
  intro moment momentFine
  have tells := told moment momentFine
  cases ran : step moment.machine with
  | done value after =>
    obtain ⟨⟨marks, made⟩, goodValue⟩ := tells_done moment step value after ran tells
    exact done_tells moment _ value after marks (by simp only [mapFailure, ran]) (.mapFailure change step _ after marks made)
      goodValue
  | failed failure after =>
    obtain ⟨⟨marks, made⟩, once⟩ := tells_failed moment step failure after ran tells
    exact failed_tells moment _ (change failure) after marks (by simp only [mapFailure, ran])
      (.mapFailure change step _ after marks made) fun cause same => once cause (sameCause failure cause same)
  | outOfFuel => exact exhausted_tells moment _ (by simp only [mapFailure, ran])

theorem told_attempt (told : step.Told good) :
    step.attempt.Told fun outcome => (∀ value, outcome = .ok value → good value) ∧
      ∀ failure, outcome = .error failure → failure.Once := by
  intro moment momentFine
  have tells := told moment momentFine
  cases ran : step moment.machine with
  | done value after =>
    obtain ⟨⟨marks, made⟩, goodValue⟩ := tells_done moment step value after ran tells
    refine done_tells moment _ (.ok value) after marks (attempt_done step _ after value ran) (.attempt step _ after marks made) ?_
    exact ⟨fun other same => Except.ok.inj same ▸ goodValue, fun _ same => by cases same⟩
  | failed failure after =>
    obtain ⟨⟨marks, made⟩, once⟩ := tells_failed moment step failure after ran tells
    have done := attempt_failed step _ after failure ran
    refine done_tells moment _ (.error failure) after marks done (.attempt step _ after marks made) ?_
    exact ⟨fun _ same => (by cases same), fun other same => Except.error.inj same ▸ once⟩
  | outOfFuel => exact exhausted_tells moment _ (by simp only [attempt, ran])

theorem told_of_outcome (outcome : Except Failure α) (goodValue : ∀ value, outcome = .ok value → good value)
    (once : ∀ failure, outcome = .error failure → failure.Once) : (ofOutcome outcome).Told good := by
  cases outcome with
  | ok value => exact told_pure value (goodValue value rfl)
  | error failure => exact told_raise failure (once failure rfl)

theorem told_each (action : β → Exec Unit) (items : List β) (told : ∀ item ∈ items, (action item).Told fun _ => True) :
    (each action items).Told fun _ => True := by
  induction items with
  | nil => exact told_pure () trivial
  | cons first rest ih =>
    refine told_bind _ (told first List.mem_cons_self) fun _ _ => ?_
    exact ih fun item member => told item (List.mem_cons_of_mem _ member)

theorem told_collect (action : β → Exec α) (items : List β) (told : ∀ item ∈ items, (action item).Told good) :
    (collect action items).Told fun values => ∀ value ∈ values, good value := by
  induction items with
  | nil => exact told_pure [] fun _ member => by cases member
  | cons first rest ih =>
    refine told_bind _ (told first List.mem_cons_self) fun value goodValue => ?_
    refine told_bind _ (ih fun item member => told item (List.mem_cons_of_mem _ member)) fun values goodValues => ?_
    exact told_pure _ (List.forall_mem_cons.mpr ⟨goodValue, goodValues⟩)

-- A step that leaves tasks alone, whatever machine it is given.
theorem told_aside (done : ∀ (machine after : Machine) (value : α), machine.Tidy → step machine = .done value after →
      machine.Aside after ∧ good value)
    (failed : ∀ (machine after : Machine) (failure : Failure), machine.Tidy → step machine = .failed failure after →
      machine.Aside after ∧ failure.Once) : step.Told good := by
  refine told_clean (fun machine tidy => ?_) fun machine after value tidy ran => (done machine after value tidy ran).2
  cases ran : step machine with
  | done value after => exact (done machine after value tidy ran).1
  | failed failure after => exact failed machine after failure tidy ran
  | outOfFuel => trivial

theorem told_modify (change : Machine → Machine)
    (aside : ∀ machine : Machine, machine.Tidy → machine.Aside (change machine)) : (modify change).Told fun _ => True :=
  told_clean (clean_modify change aside) fun _ _ _ _ _ => trivial

end Exec

end CoopScript
