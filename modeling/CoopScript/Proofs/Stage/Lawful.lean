import CoopScript.Proofs.Stage.Run

set_option autoImplicit false
namespace CoopScript

def Failure.HasCause (failure : Failure) (cause : Cause) : Prop :=
  ∃ diagnostic, failure = .fault diagnostic ∧ diagnostic.cause = cause

-- Causes that tell of a run that cannot go on where it is.
@[simp] def Cause.isStranding : Cause → Bool
  | .neverSettled => true
  | .depthExceeded .. => true
  | _ => false

def Failure.IsStranding (failure : Failure) : Prop := ∃ cause, failure.HasCause cause ∧ cause.isStranding = true

theorem Failure.placed_cause (position : Option Position) (failure : Failure) (cause : Cause)
    (same : (failure.orPosition position).HasCause cause) : failure.HasCause cause := by
  cases failure with
  | missingFile =>
    obtain ⟨diagnostic, known, _⟩ := same
    cases position <;> cases known
  | fault content =>
    refine ⟨content, rfl, ?_⟩
    obtain ⟨diagnostic, known, causeSame⟩ := same
    cases position <;> cases known <;> exact causeSame

theorem Failure.traced_cause (node : Node) (failure : Failure) (cause : Cause)
    (same : (Engine.trace node failure).HasCause cause) : failure.HasCause cause := by
  apply failure.placed_cause node.position? cause
  unfold Engine.trace at same
  cases placed : failure.orPosition node.position? with
  | missingFile =>
    obtain ⟨diagnostic, known, _⟩ := same
    rw [placed] at known
    cases known
  | fault content =>
    refine ⟨content, rfl, ?_⟩
    obtain ⟨diagnostic, known, causeSame⟩ := same
    rw [placed] at known
    cases known
    exact causeSame

namespace Stage

-- A task waits, and there is nothing left to be done that could settle it.
structure Unanswered (stage : Stage) (task : TaskId) : Prop where
  pending : stage.machine.tasks.state? task = some .pending
  quiet : stage.machine.microtasks = []
  jobless : stage.machine.jobs = []

-- The innermost call is refused, as calls of the number of the limit lie running below it.
structure Refuses (stage : Stage) (most : Nat) : Prop where
  limit : stage.machine.config.depthLimit = most
  piled : ∃ call rest, stage.calls = call :: rest ∧ call.running = false ∧ most ≤ rest.countP Call.running

end Stage

-- Where a run cannot go on: a pass of waiting leaves nothing that could settle the task, or the lines of a function
-- are refused.
inductive Impasse : {α : Type} → Exec α → Stage → Cause → Stage → Prop where
  | unanswered (fuel : Nat) (task : TaskId) (idle : Nat) (place : Stage) (after : Machine)
      (failed : (RuleSet.standard.engine fuel).awaitStep task idle place.machine = .failed (.of .neverSettled) after)
      (unanswered : (place.put after).Unanswered task) :
      Impasse ((RuleSet.standard.engine fuel).awaitStep task idle) place .neverSettled (place.put after)
  | refused (fuel : Nat) (name : String) (lines : List Node) (frame : FrameId) (place : Stage) (limit : Nat)
      (failed : (RuleSet.standard.engine fuel).runFrame name lines frame place.machine =
        .failed (.of (.depthExceeded limit name)) place.machine) (refuses : place.Refuses limit) :
      Impasse ((RuleSet.standard.engine fuel).runFrame name lines frame) place (.depthExceeded limit name) place

def Exec.Strands {α : Type} (step : Exec α) (stage : Stage) (cause : Cause) (middle : Stage) : Prop :=
  ∃ (β : Type) (inner : Exec β) (place : Stage), step.Comes stage inner place ∧ Impasse inner place cause middle

namespace Stage

-- The machine is where a run has brought it by steps of a script, with the same runners registered.
structure Reaches {α : Type} (stage : Stage) (step : Exec α) (machine : Machine) : Prop where
  registered : machine.registered.Perm stage.machine.registered
  takes : step.Takes stage (stage.put machine)
  leads : stage.Leads stage (stage.put machine)

-- The machine is what a failure has left behind that was raised on the way. That waiting is given up or a call
-- refused is only raised where the run could not go on.
structure Breaks {α : Type} (stage : Stage) (step : Exec α) (failure : Failure) (machine : Machine) : Prop where
  registered : machine.registered.Perm stage.machine.registered
  takes : step.Takes stage (stage.put machine)
  raised : ∃ middle, stage.Leads stage middle ∧
    (∀ cause, failure.HasCause cause → cause.isStranding = true → step.Strands stage cause middle) ∧
    stage.Leaves middle (stage.put machine)

def Ends {α : Type} (stage : Stage) (good : α → Prop) (step : Exec α) : Outcome α → Prop
  | .done value machine => stage.Reaches step machine ∧ good value
  | .failed failure machine => stage.Breaks step failure machine
  | .outOfFuel => True

def Follows {α : Type} (stage : Stage) (good : α → Prop) (step : Exec α) : Prop :=
  stage.Ends good step (step stage.machine)

section Results
variable {α β : Type} (stage : Stage) (step : Exec α)

theorem reaches_within (machine : Machine) (reaches : stage.Reaches step machine) : stage.Within (stage.put machine) :=
  within_put stage stage machine reaches.registered (within_refl stage)

theorem reaches_sound (machine : Machine) (sound : stage.Sound) (reaches : stage.Reaches step machine) :
    (stage.put machine).Sound := leads_sound stage stage _ sound reaches.leads

theorem breaks_sound (failure : Failure) (machine : Machine) (sound : stage.Sound)
    (breaks : stage.Breaks step failure machine) : (stage.put machine).Sound := by
  obtain ⟨middle, leads, _, leaves⟩ := breaks.raised
  exact leaves_sound stage middle _ (leads_sound stage stage middle sound leads) leaves

variable (next : α → Exec β) (value : α) (middle machine : Machine) (ran : step stage.machine = .done value middle)
  (first : stage.Reaches step middle)
include ran first

theorem reaches_next (second : (stage.put middle).Reaches (next value) machine) :
    stage.Reaches (step >>= next) machine where
  registered := second.registered.trans first.registered
  takes := .done step next stage (stage.put middle) _ value ran first.takes second.takes
  leads := first.leads.trans (leads_within _ stage _ _ (reaches_within stage step middle first) second.leads)

theorem breaks_next (failure : Failure) (second : (stage.put middle).Breaks (next value) failure machine) :
    stage.Breaks (step >>= next) failure machine := by
  obtain ⟨raising, leads, strands, leaves⟩ := second.raised
  have within := reaches_within stage step middle first
  refine ⟨second.registered.trans first.registered,
    .done step next stage (stage.put middle) _ value ran first.takes second.takes, raising,
    first.leads.trans (leads_within _ stage _ _ within leads), fun cause has stranding => ?_,
    leaves_within _ stage _ _ within leaves⟩
  obtain ⟨γ, inner, place, comes, impasse⟩ := strands cause has stranding
  exact ⟨γ, inner, place, .next step next stage (stage.put middle) value ran first.takes inner place comes, impasse⟩

omit ran first in
theorem breaks_first (failure : Failure) (failed : step stage.machine = .failed failure machine)
    (breaks : stage.Breaks step failure machine) : stage.Breaks (step >>= next) failure machine := by
  obtain ⟨raising, leads, strands, leaves⟩ := breaks.raised
  refine ⟨breaks.registered, .failed step next stage (stage.put machine) failure failed breaks.takes, raising, leads,
    fun cause has stranding => ?_, leaves⟩
  obtain ⟨γ, inner, place, comes, impasse⟩ := strands cause has stranding
  exact ⟨γ, inner, place, .first step next stage inner place comes, impasse⟩

end Results

end Stage

namespace Exec
variable {α β σ : Type}

def Lawful (step : Exec α) (good : α → Prop) : Prop := ∀ stage : Stage, stage.Sound → stage.Follows good step

section Follows
variable (stage : Stage) (good : α → Prop) (step : Exec α)

theorem follows_done (value : α) (machine : Machine) (done : step stage.machine = .done value machine)
    (reaches : stage.Reaches step machine) (fine : good value) : stage.Follows good step := by
  unfold Stage.Follows
  rw [done]
  exact ⟨reaches, fine⟩

theorem follows_failed (failure : Failure) (machine : Machine) (failed : step stage.machine = .failed failure machine)
    (breaks : stage.Breaks step failure machine) : stage.Follows good step := by
  unfold Stage.Follows
  rw [failed]
  exact breaks

theorem follows_exhausted (exhausted : step stage.machine = .outOfFuel) : stage.Follows good step := by
  unfold Stage.Follows
  rw [exhausted]
  trivial

theorem follows_step (value : α) (machine : Machine) (done : step stage.machine = .done value machine)
    (stepped : Step stage (stage.put machine)) (registered : machine.registered.Perm stage.machine.registered)
    (fine : good value) : stage.Follows good step :=
  follows_done stage good step value machine done ⟨registered,
    .stroke step stage _ (.inl ⟨value, done⟩) (.inr (.inl stepped)),
    .single ⟨stepped, Stage.within_put stage stage machine registered (Stage.within_refl stage)⟩⟩ fine

theorem follows_here (value : α) (done : step stage.machine = .done value stage.machine) (fine : good value) :
    stage.Follows good step :=
  follows_done stage good step value stage.machine done
    ⟨.refl _, .stroke step stage stage (.inl ⟨value, done⟩) (.inl rfl), .refl⟩ fine

theorem follows_unwound (failure : Failure) (machine : Machine)
    (failed : step stage.machine = .failed failure machine) (unwound : Unwind stage (stage.put machine))
    (registered : machine.registered.Perm stage.machine.registered) (other : ¬ failure.IsStranding) :
    stage.Follows good step :=
  follows_failed stage good step failure machine failed ⟨registered,
    .stroke step stage _ (.inr ⟨failure, failed⟩) (.inr (.inr unwound)), stage, .refl,
    fun cause has stranding => absurd ⟨cause, has, stranding⟩ other,
    .single ⟨unwound, Stage.within_put stage stage machine registered (Stage.within_refl stage)⟩⟩

theorem follows_refused (failure : Failure) (failed : step stage.machine = .failed failure stage.machine)
    (other : ¬ failure.IsStranding) : stage.Follows good step :=
  follows_failed stage good step failure stage.machine failed ⟨.refl _,
    .stroke step stage stage (.inr ⟨failure, failed⟩) (.inl rfl), stage, .refl,
    fun cause has stranding => absurd ⟨cause, has, stranding⟩ other, .refl⟩

theorem follows_cases (follows : stage.Follows good step) :
    (∃ value machine, step stage.machine = .done value machine ∧ stage.Reaches step machine ∧ good value) ∨
      (∃ failure machine, step stage.machine = .failed failure machine ∧ stage.Breaks step failure machine) ∨
      step stage.machine = .outOfFuel := by
  unfold Stage.Follows at follows
  cases result : step stage.machine with
  | done value machine =>
    rw [result] at follows
    exact .inl ⟨value, machine, rfl, follows.1, follows.2⟩
  | failed failure machine =>
    rw [result] at follows
    exact .inr (.inl ⟨failure, machine, rfl, follows⟩)
  | outOfFuel => exact .inr (.inr rfl)

theorem follows_weaken (fine : α → Prop) (follows : stage.Follows good step) (weaker : ∀ value, good value → fine value) :
    stage.Follows fine step := by
  rcases follows_cases stage good step follows with
    ⟨value, machine, done, reaches, good⟩ | ⟨failure, machine, failed, breaks⟩ | exhausted
  · exact follows_done stage fine step value machine done reaches (weaker value good)
  · exact follows_failed stage fine step failure machine failed breaks
  · exact follows_exhausted stage fine step exhausted

end Follows

theorem follows_bind (stage : Stage) (sound : stage.Sound) (good : α → Prop) (fine : β → Prop) (step : Exec α)
    (next : α → Exec β) (follows : stage.Follows good step)
    (later : ∀ value machine, step stage.machine = .done value machine → stage.Reaches step machine →
      good value → (stage.put machine).Sound → (stage.put machine).Follows fine (next value)) :
    stage.Follows fine (step >>= next) := by
  rcases follows_cases stage good step follows with
    ⟨value, machine, done, reaches, good⟩ | ⟨failure, machine, failed, breaks⟩ | exhausted
  · have machineSound := Stage.reaches_sound stage step machine sound reaches
    have ran := bind_done step next stage.machine machine value done
    rcases follows_cases _ fine (next value) (later value machine done reaches good machineSound) with
      ⟨result, after, done', further, fine⟩ | ⟨failure, after, failed, breaks⟩ | exhausted
    · exact follows_done stage _ _ result after (ran.trans done')
        (Stage.reaches_next stage step next value machine after done reaches further) fine
    · exact follows_failed stage _ _ failure after (ran.trans failed)
        (Stage.breaks_next stage step next value machine after done reaches failure breaks)
    · exact follows_exhausted stage _ _ (ran.trans exhausted)
  · exact follows_failed stage _ _ failure machine
      (bind_failed step next stage.machine machine failure failed)
      (Stage.breaks_first stage step next machine failure failed breaks)
  · exact follows_exhausted stage _ _ (bind_exhausted step next stage.machine exhausted)

theorem lawful_bind (good : α → Prop) (fine : β → Prop) (first : Exec α) (next : α → Exec β)
    (lawful : first.Lawful good) (later : ∀ value, good value → (next value).Lawful fine) :
    (first >>= next).Lawful fine := by
  intro stage sound
  apply follows_bind stage sound good fine first next (lawful stage sound)
  intro value machine _ _ good machineSound
  exact later value good (stage.put machine) machineSound

theorem lawful_pure (good : α → Prop) (value : α) (fine : good value) :
    Lawful (Pure.pure value : Exec α) good := fun stage _ => follows_here stage good _ value rfl fine

theorem lawful_weaken (good fine : α → Prop) (step : Exec α) (lawful : step.Lawful good)
    (weaker : ∀ value, good value → fine value) : step.Lawful fine := fun stage sound =>
  follows_weaken stage good step fine (lawful stage sound) weaker

theorem lawful_read (good : α → Prop) (view : Machine → α)
    (fine : ∀ stage : Stage, stage.Sound → good (view stage.machine)) : Lawful (read view) good :=
  fun stage sound => follows_here stage good _ _ rfl (fine stage sound)

theorem follows_look (stage : Stage) (sound : stage.Sound) (fine : β → Prop) (view : Machine → α) (next : α → Exec β)
    (later : stage.Follows fine (next (view stage.machine))) : stage.Follows fine (read view >>= next) := by
  apply follows_bind stage sound (fun _ => True) fine (read view) next (follows_here stage _ _ _ rfl trivial)
  rintro _ _ ⟨⟩ _ _ _
  exact later

theorem lawful_look (fine : β → Prop) (view : Machine → α) (next : α → Exec β)
    (later : ∀ stage : Stage, stage.Sound → stage.Follows fine (next (view stage.machine))) :
    (read view >>= next).Lawful fine := fun stage sound =>
  follows_look stage sound fine view next (later stage sound)

theorem lawful_raise (good : α → Prop) (failure : Failure) (other : ¬ failure.IsStranding) :
    Lawful (raise failure : Exec α) good := fun stage _ => follows_refused stage good _ failure rfl other

theorem cause_of (cause other : Cause) (same : (Failure.of cause).HasCause other) : cause = other := by
  obtain ⟨diagnostic, known, causeSame⟩ := same
  cases known
  exact causeSame

theorem cause_located (cause other : Cause) (position : Position)
    (same : (Failure.located cause position).HasCause other) : cause = other := by
  obtain ⟨diagnostic, known, causeSame⟩ := same
  cases known
  exact causeSame

theorem not_stranding (cause : Cause) (other : cause.isStranding = false) : ¬ (Failure.of cause).IsStranding := by
  rintro ⟨same, has, stranding⟩
  rw [← cause_of cause same has, other] at stranding
  cases stranding

theorem not_stranding_located (cause : Cause) (position : Position) (other : cause.isStranding = false) :
    ¬ (Failure.located cause position).IsStranding := by
  rintro ⟨same, has, stranding⟩
  rw [← cause_located cause same position has, other] at stranding
  cases stranding

theorem lawful_fail (good : α → Prop) (cause : Cause) (other : cause.isStranding = false) :
    Lawful (fail cause : Exec α) good :=
  lawful_raise good _ (not_stranding cause other)

theorem lawful_stop (fine : β → Prop) (cause : Cause) (next : α → Exec β)
    (other : cause.isStranding = false) : ((fail cause : Exec α) >>= next).Lawful fine :=
  lawful_bind (fun _ => False) fine _ next (lawful_fail _ cause other) fun _ impossible => impossible.elim

theorem lawful_fail_at (good : α → Prop) (cause : Cause) (position : Position)
    (other : cause.isStranding = false) : Lawful (failAt cause position : Exec α) good :=
  lawful_raise good _ (not_stranding_located cause position other)

theorem lawful_exhausted (good : α → Prop) : Lawful (exhausted : Exec α) good := fun stage _ =>
  follows_exhausted stage good _ rfl

theorem follows_map_failure (stage : Stage) (good : α → Prop) (change : Failure → Failure) (step : Exec α)
    (sameCause : ∀ failure cause, (change failure).HasCause cause → failure.HasCause cause)
    (follows : stage.Follows good step) : stage.Follows good (step.mapFailure change) := by
  rcases follows_cases stage good step follows with
    ⟨value, machine, done, reaches, good⟩ | ⟨failure, machine, failed, breaks⟩ | exhausted
  · exact follows_done stage _ _ value machine (by simp [mapFailure, done])
      ⟨reaches.registered, .mapFailure change step stage _ reaches.takes, reaches.leads⟩ good
  · obtain ⟨raising, leads, strands, leaves⟩ := breaks.raised
    refine follows_failed stage _ _ (change failure) machine (by simp [mapFailure, failed])
      ⟨breaks.registered, .mapFailure change step stage _ breaks.takes, raising, leads,
        fun cause has stranding => ?_, leaves⟩
    obtain ⟨γ, inner, place, comes, impasse⟩ := strands cause (sameCause failure cause has) stranding
    exact ⟨γ, inner, place, .mapFailure change step stage inner place comes, impasse⟩
  · exact follows_exhausted stage _ _ (by simp [mapFailure, exhausted])

theorem lawful_map_failure (good : α → Prop) (change : Failure → Failure) (step : Exec α)
    (sameCause : ∀ failure cause, (change failure).HasCause cause → failure.HasCause cause)
    (lawful : step.Lawful good) : (step.mapFailure change).Lawful good := fun stage sound =>
  follows_map_failure stage good change step sameCause (lawful stage sound)

theorem lawful_iterate (inv : σ → Prop) (good : α → Prop) (step : σ → Exec (σ ⊕ α))
    (lawful : ∀ state, inv state → (step state).Lawful (Sum.elim inv good)) (fuel : Nat) (state : σ)
    (start : inv state) : (iterate step fuel state).Lawful good := by
  induction fuel generalizing state with
  | zero => exact lawful_exhausted good
  | succ fuel ih =>
    rw [iterate_unrolled]
    apply lawful_bind (Sum.elim inv good) good (step state) _ (lawful state start)
    intro result fine
    cases result with
    | inl state => exact ih state fine
    | inr value => exact lawful_pure good value fine

theorem lawful_map (good : α → Prop) (fine : β → Prop) (change : α → β) (step : Exec α)
    (lawful : step.Lawful good) (carried : ∀ value, good value → fine (change value)) :
    (change <$> step).Lawful fine :=
  lawful_bind good fine step _ lawful fun value goodValue =>
    lawful_pure fine (change value) (carried value goodValue)

theorem lawful_quiet (change : Machine → Machine)
    (quiet : ∀ machine, ∃ output halted identity clock ready, change machine = { machine with
      output := output, halted := halted, nextIdentity := identity, clock := clock, ready := ready }) :
    (modify change).Lawful fun _ => True := by
  intro stage _
  obtain ⟨output, halted, identity, clock, ready, same⟩ := quiet stage.machine
  refine follows_step stage _ _ () (change stage.machine) rfl ?_ ?_ trivial
  · rw [same]
    exact .quiet stage output halted identity clock ready
  · rw [same]
    exact .refl _

end Exec

namespace Stage
variable {α : Type} (stage : Stage) (good : α → Prop) (step : Exec α) (after : Machine)

theorem follows_left (follows : stage.Follows good step) (left : (step stage.machine).Leaves after) :
    stage.Reaches step after ∨ ∃ failure, stage.Breaks step failure after := by
  unfold Follows at follows
  rcases left with ⟨value, ran⟩ | ⟨failure, ran⟩ <;> rw [ran] at follows
  · exact .inl follows.1
  · exact .inr ⟨failure, follows⟩

theorem follows_takes (follows : stage.Follows good step) (left : (step stage.machine).Leaves after) :
    step.Takes stage (stage.put after) := by
  rcases stage.follows_left good step after follows left with reaches | ⟨failure, breaks⟩
  · exact reaches.takes
  · exact breaks.takes

theorem follows_sound (sound : stage.Sound) (follows : stage.Follows good step)
    (left : (step stage.machine).Leaves after) : (stage.put after).Sound :=
  Exec.takes_sound step stage _ sound (stage.follows_takes good step after follows left)

theorem follows_registered (follows : stage.Follows good step) (left : (step stage.machine).Leaves after) :
    after.registered.Perm stage.machine.registered := by
  rcases stage.follows_left good step after follows left with reaches | ⟨failure, breaks⟩
  · exact reaches.registered
  · exact breaks.registered

theorem breaks_steady (failure : Failure) (sound : stage.Sound) (breaks : stage.Breaks step failure after) :
    stage.Steady stage.machine.frames after.frames := by
  obtain ⟨middle, leads, _, leaves⟩ := breaks.raised
  obtain ⟨within, steady⟩ := leads_steady stage stage middle sound (within_refl stage) leads
  have further := leaves_steady stage middle _ (leads_sound stage stage middle sound leads) within leaves
  exact steady_trans stage _ _ _ steady further.2

theorem follows_steady (sound : stage.Sound) (follows : stage.Follows good step)
    (left : (step stage.machine).Leaves after) : stage.Steady stage.machine.frames after.frames := by
  rcases stage.follows_left good step after follows left with reaches | ⟨failure, breaks⟩
  · exact (leads_steady stage stage _ sound (within_refl stage) reaches.leads).2
  · exact stage.breaks_steady step after failure sound breaks

end Stage
end CoopScript
