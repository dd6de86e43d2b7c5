import CoopScript.Proofs.Exit.Memory
import CoopScript.Proofs.Stage.Due

set_option autoImplicit false
namespace CoopScript

def Running (halted : Bool) : Prop := halted = false

def Anyhow (_ : Bool) : Prop := True

namespace Leeway

-- Operations that may refuse what they are given are begun on a halted machine only if this is risked.
def Operates (leeway : Leeway) (halted : Bool) : Prop := halted = true → leeway.risks = true

-- Calls are begun on a halted machine only if their arguments may contain calls.
def Calls (leeway : Leeway) (halted : Bool) : Prop := halted = true → leeway.nests = true ∨ leeway.risks = true

end Leeway

namespace Failure

theorem cause_placed (position : Option Position) (failure : Failure) (cause : Cause) (has : failure.HasCause cause) :
    (failure.orPosition position).HasCause cause := by
  obtain ⟨diagnostic, rfl, same⟩ := has
  cases position with
  | none => exact ⟨diagnostic, rfl, same⟩
  | some position => exact ⟨diagnostic.orPosition position, rfl, same⟩

theorem cause_traced (node : Node) (failure : Failure) (cause : Cause) (has : failure.HasCause cause) :
    (Engine.trace node failure).HasCause cause := by
  obtain ⟨diagnostic, placed, same⟩ := failure.cause_placed node.position? cause has
  unfold Engine.trace
  rw [placed]
  exact ⟨_, rfl, same⟩

theorem has_cause_of (cause : Cause) : (Failure.of cause).HasCause cause := ⟨_, rfl, rfl⟩

end Failure

namespace Leeway
variable (leeway : Leeway)

theorem allows_changed (change : Failure → Failure) (failure : Failure)
    (sameCause : ∀ cause, failure.HasCause cause → (change failure).HasCause cause) (allows : leeway.Allows failure) :
    leeway.Allows (change failure) := by
  obtain ⟨cause, has, allowed⟩ := allows
  exact ⟨cause, sameCause cause has, allowed⟩

end Leeway

def Outcome.Bears {α : Type} (leeway : Leeway) (last : Bool → Prop) (good : α → Prop) (outcome : Outcome α) : Prop :=
  match outcome with
  | .done value machine => machine.Tame leeway ∧ last machine.halted ∧ good value
  | .failed failure machine => machine.Tame leeway ∧ (machine.halted = true → leeway.Allows failure)
  | .outOfFuel => True

namespace Stage

structure Fit (leeway : Leeway) (stage : Stage) : Prop where
  sound : stage.Sound
  due : stage.Due
  tame : stage.machine.Tame leeway

def Bears {α : Type} (leeway : Leeway) (last : Bool → Prop) (good : α → Prop) (stage : Stage) (step : Exec α) : Prop :=
  stage.Follows (fun _ => True) step ∧ (step stage.machine).Bears leeway last good

end Stage

-- Begun where `start` allows, the step ends where `last` allows, with a good value. The frame is one that is held as
-- long as the step runs.
def Exec.Tends {α : Type} (leeway : Leeway) (frame : FrameId) (start last : Bool → Prop) (good : α → Prop)
    (step : Exec α) : Prop :=
  ∀ stage : Stage, stage.Fit leeway → frame ∈ stage.firm → start stage.machine.halted → stage.Bears leeway last good step

namespace Stage
variable {α β : Type} {leeway : Leeway} {middle last : Bool → Prop} {good : α → Prop} {fine : β → Prop} {step : Exec α}
  (stage : Stage)

theorem reaches_fit (fit : stage.Fit leeway) (machine : Machine) (reaches : stage.Reaches step machine)
    (tame : machine.Tame leeway) : (stage.put machine).Fit leeway :=
  ⟨reaches_sound stage step machine fit.sound reaches, leads_due stage stage _ fit.due reaches.leads, tame⟩

theorem breaks_fit (fit : stage.Fit leeway) (failure : Failure) (machine : Machine)
    (breaks : stage.Breaks step failure machine) (tame : machine.Tame leeway) : (stage.put machine).Fit leeway := by
  obtain ⟨middle, leads, _, leaves⟩ := breaks.raised
  exact ⟨breaks_sound stage step failure machine fit.sound breaks,
    leaves_due stage middle _ (leads_due stage stage middle fit.due leads) leaves, tame⟩

-- Whatever a step leaves behind, it is fit to go on.
theorem bears_fit (fit : stage.Fit leeway) (bears : stage.Bears leeway last good step) (after : Machine)
    (left : (step stage.machine).Leaves after) : (stage.put after).Fit leeway := by
  obtain ⟨follows, outcome⟩ := bears
  unfold Follows at follows
  rcases left with ⟨value, ran⟩ | ⟨failure, ran⟩ <;> rw [ran] at follows outcome
  · exact stage.reaches_fit fit after follows.1 outcome.1
  · exact stage.breaks_fit fit failure after follows outcome.1

theorem bears_done (bears : stage.Bears leeway last good step) (value : α) (after : Machine)
    (done : step stage.machine = .done value after) :
    stage.Reaches step after ∧ after.Tame leeway ∧ last after.halted ∧ good value := by
  obtain ⟨follows, outcome⟩ := bears
  unfold Follows at follows
  rw [done] at follows outcome
  exact ⟨follows.1, outcome⟩

-- What comes of a sequence, when it is known otherwise that it follows the steps of a script.
theorem outcome_bind (fit : stage.Fit leeway) (next : α → Exec β) (bears : stage.Bears leeway middle good step)
    (later : ∀ value machine, step stage.machine = .done value machine → stage.Reaches step machine →
      (stage.put machine).Fit leeway → middle machine.halted → good value →
      (next value machine).Bears leeway last fine) : ((step >>= next) stage.machine).Bears leeway last fine := by
  cases ran : step stage.machine with
  | done value machine =>
    obtain ⟨reaches, tame, halt, fineValue⟩ := stage.bears_done bears value machine ran
    rw [Exec.bind_done step next _ _ value ran]
    exact later value machine ran reaches (stage.reaches_fit fit machine reaches tame) halt fineValue
  | failed failure machine =>
    have outcome := bears.2
    rw [ran] at outcome
    rw [Exec.bind_failed step next _ _ failure ran]
    exact outcome
  | outOfFuel =>
    rw [Exec.bind_exhausted step next _ ran]
    trivial

theorem bears_bind (fit : stage.Fit leeway) (next : α → Exec β) (bears : stage.Bears leeway middle good step)
    (later : ∀ value machine, step stage.machine = .done value machine → stage.Reaches step machine →
      (stage.put machine).Fit leeway → middle machine.halted → good value →
      (stage.put machine).Bears leeway last fine (next value)) : stage.Bears leeway last fine (step >>= next) := by
  constructor
  · refine Exec.follows_bind stage fit.sound (fun _ => True) _ step next bears.1 fun value machine done _ _ _ => ?_
    obtain ⟨reaches, tame, halt, fineValue⟩ := stage.bears_done bears value machine done
    exact (later value machine done reaches (stage.reaches_fit fit machine reaches tame) halt fineValue).1
  · exact stage.outcome_bind fit next bears fun value machine done reaches machineFit halt fineValue =>
      (later value machine done reaches machineFit halt fineValue).2

theorem bears_look (fit : stage.Fit leeway) (view : Machine → α) (next : α → Exec β)
    (later : stage.Bears leeway last fine (next (view stage.machine))) :
    stage.Bears leeway last fine (Exec.read view >>= next) :=
  ⟨Exec.follows_look stage fit.sound _ view next later.1, later.2⟩

theorem root_firm : Arena.root ∈ stage.firm := List.mem_cons_self

end Stage

namespace Exec
variable {α β σ : Type} {leeway : Leeway} {frame : FrameId} {start middle last level : Bool → Prop} {good : α → Prop}
  {fine : β → Prop} {step : Exec α}

theorem tends_lawful {lawfully : α → Prop} (lawful : step.Lawful lawfully)
    (bears : ∀ stage : Stage, stage.Fit leeway → frame ∈ stage.firm → start stage.machine.halted →
      (step stage.machine).Bears leeway last good) : step.Tends leeway frame start last good :=
  fun stage fit held begun =>
    ⟨lawful_weaken lawfully _ step lawful (fun _ _ => trivial) stage fit.sound, bears stage fit held begun⟩

theorem tends_bind (next : α → Exec β) (tends : step.Tends leeway frame start middle good)
    (later : ∀ value, good value → (next value).Tends leeway frame middle last fine) :
    (step >>= next).Tends leeway frame start last fine := by
  intro stage fit held begun
  refine stage.bears_bind fit next (tends stage fit held begun) ?_
  intro value machine _ reaches machineFit halt fineValue
  exact later value fineValue _ machineFit ((stage.firm_put machine reaches.registered frame).mpr held) halt

theorem tends_weaken {earlier more : Bool → Prop} {better : α → Prop}
    (tends : step.Tends leeway frame earlier more better) (begins : ∀ halted, start halted → earlier halted)
    (ends : ∀ halted, more halted → last halted) (weaker : ∀ value, better value → good value) :
    step.Tends leeway frame start last good := by
  intro stage fit held begun
  obtain ⟨follows, outcome⟩ := tends stage fit held (begins _ begun)
  refine ⟨follows, ?_⟩
  cases ran : step stage.machine with
  | done value machine =>
    rw [ran] at outcome
    exact ⟨outcome.1, ends _ outcome.2.1, weaker value outcome.2.2⟩
  | failed failure machine =>
    rw [ran] at outcome
    exact outcome
  | outOfFuel => trivial

theorem tends_anyhow (tends : step.Tends leeway frame start last good) :
    step.Tends leeway frame start Anyhow good :=
  tends_weaken tends (fun _ begun => begun) (fun _ _ => trivial) fun _ fine => fine

theorem tends_early (tends : step.Tends leeway frame Anyhow last good) : step.Tends leeway frame start last good :=
  tends_weaken tends (fun _ _ => trivial) (fun _ ended => ended) fun _ fine => fine

theorem tends_better {better : α → Prop} (tends : step.Tends leeway frame start last better)
    (weaker : ∀ value, better value → good value) : step.Tends leeway frame start last good :=
  tends_weaken tends (fun _ begun => begun) (fun _ ended => ended) weaker

-- The outermost frame is always held.
theorem tends_here (tends : step.Tends leeway Arena.root start last good) : step.Tends leeway frame start last good :=
  fun stage fit _ begun => tends stage fit stage.root_firm begun

theorem tends_pure (value : α) (fine : good value) :
    (Pure.pure value : Exec α).Tends leeway frame level level good :=
  tends_lawful (lawful_pure (fun _ => True) value trivial) fun _ fit _ begun => ⟨fit.tame, begun, fine⟩

theorem tends_read (view : Machine → α) (fine : ∀ machine : Machine, machine.Tame leeway → good (view machine)) :
    (read view).Tends leeway frame level level good :=
  tends_lawful (lawful_seen view) fun stage fit _ begun => ⟨fit.tame, begun, fine stage.machine fit.tame⟩

theorem tends_seen (view : Machine → α) : (read view).Tends leeway frame level level fun _ => True :=
  tends_read view fun _ _ => trivial

theorem tends_raise (failure : Failure) (other : ¬ failure.IsStranding)
    (allows : ∀ halted, start halted → halted = true → leeway.Allows failure) :
    (raise failure : Exec α).Tends leeway frame start last good :=
  tends_lawful (lawful_raise (fun _ => True) failure other) fun _ fit _ begun => ⟨fit.tame, allows _ begun⟩

theorem tends_allowed (cause : Cause) (other : cause.isStranding = false)
    (allows : ∀ halted, start halted → halted = true → leeway.Allows (.of cause)) :
    (fail cause : Exec α).Tends leeway frame start last good :=
  tends_raise _ (not_stranding cause other) allows

theorem running_not_halted {P : Prop} (halted : Bool) (running : Running halted) (isHalted : halted = true) : P :=
  absurd (running.symm.trans isHalted) Bool.false_ne_true

theorem running_operates (halted : Bool) (running : Running halted) : leeway.Operates halted :=
  running_not_halted halted running

theorem tends_fail (cause : Cause) (refusal : cause.isRefusal = true) :
    (fail cause : Exec α).Tends leeway frame leeway.Operates last good :=
  tends_allowed cause (cause.refusal_settles refusal) fun _ operates isHalted =>
    ⟨cause, Failure.has_cause_of cause, .inr (.inr ⟨operates isHalted, refusal⟩)⟩

theorem tends_stop (cause : Cause) (next : α → Exec β) (refusal : cause.isRefusal = true) :
    ((fail cause : Exec α) >>= next).Tends leeway frame leeway.Operates last fine := by
  have stopped : (fail cause : Exec α).Tends leeway frame leeway.Operates leeway.Operates fun _ => False :=
    tends_fail cause refusal
  exact tends_bind next stopped fun _ impossible => impossible.elim

theorem tends_fail_at (cause : Cause) (position : Position) (refusal : cause.isRefusal = true) :
    (failAt cause position : Exec α).Tends leeway frame leeway.Operates last good :=
  tends_raise _ (not_stranding_located cause position (cause.refusal_settles refusal))
    fun _ operates isHalted => ⟨cause, ⟨_, rfl, rfl⟩, .inr (.inr ⟨operates isHalted, refusal⟩)⟩

theorem tends_fail_named (value : Value) (cause : String → Cause) (refusal : ∀ name, (cause name).isRefusal = true) :
    Tends leeway frame leeway.Operates last good (do fail (cause (← nameOf value)) : Exec α) :=
  tends_bind _ (tends_seen _) fun name _ => tends_fail (cause name) (refusal name)

theorem tends_exhausted : (exhausted : Exec α).Tends leeway frame start last good :=
  tends_lawful (lawful_exhausted fun _ => True) fun _ _ _ _ => trivial

theorem tends_map_failure (change : Failure → Failure)
    (sameCause : ∀ failure cause, (change failure).HasCause cause → failure.HasCause cause)
    (carried : ∀ failure cause, failure.HasCause cause → (change failure).HasCause cause)
    (tends : step.Tends leeway frame start last good) :
    (step.mapFailure change).Tends leeway frame start last good := by
  intro stage fit held begun
  obtain ⟨follows, outcome⟩ := tends stage fit held begun
  refine ⟨follows_map_failure stage _ change step sameCause follows, ?_⟩
  unfold mapFailure
  cases ran : step stage.machine with
  | done value machine =>
    rw [ran] at outcome
    exact outcome
  | failed failure machine =>
    rw [ran] at outcome
    exact ⟨outcome.1, fun halted => leeway.allows_changed change failure (carried failure) (outcome.2 halted)⟩
  | outOfFuel => trivial

theorem tends_iterate (step : σ → Exec (σ ⊕ α))
    (tends : ∀ state, (step state).Tends leeway frame start last (Sum.elim (fun _ => True) good))
    (again : ∀ state machine next after, step state machine = .done (.inl next) after → start after.halted)
    (fuel : Nat) (state : σ) : (iterate step fuel state).Tends leeway frame start last good := by
  induction fuel generalizing state with
  | zero => exact tends_exhausted
  | succ fuel ih =>
    intro stage fit held begun
    rw [iterate_unrolled]
    refine stage.bears_bind fit _ (tends state stage fit held begun) ?_
    intro result machine done reaches machineFit halt fine
    have machineHeld := (stage.firm_put machine reaches.registered frame).mpr held
    cases result with
    | inl next => exact ih next _ machineFit machineHeld (again state stage.machine next machine done)
    | inr value => exact tends_pure value fine _ machineFit machineHeld halt

theorem tends_collect (action : β → Exec α) (items : List β)
    (tends : ∀ item ∈ items, (action item).Tends leeway frame level level good) :
    (collect action items).Tends leeway frame level level fun values => ∀ value ∈ values, good value := by
  induction items with
  | nil => exact tends_pure [] fun _ member => by cases member
  | cons first rest ih =>
    apply tends_bind _ (tends first (by simp))
    intro value fine
    apply tends_bind _ (ih fun item member => tends item (List.mem_cons_of_mem _ member))
    intro values fineValues
    apply tends_pure
    intro item member
    rcases List.mem_cons.mp member with rfl | later
    · exact fine
    · exact fineValues item later

theorem tends_map (change : α → β) (tends : step.Tends leeway frame start last good)
    (carried : ∀ value, good value → fine (change value)) : (change <$> step).Tends leeway frame start last fine :=
  tends_bind _ tends fun value fineValue => tends_pure (change value) (carried value fineValue)

end Exec

end CoopScript
