import CoopScript.Proofs.Lens.Memory

/-!
Steps through a lens. Twin steps do, on what is seen of a machine, what the steps do on the machine itself, and give
what is seen of the answer. This is asked of machines of scripts only, and where only some tasks are looked at, it ends
with the first task that is made; until then it does not matter what time it is.
-/
set_option autoImplicit false
namespace CoopScript

-- A value of a script; if only some tasks are looked at, it refers to none of the others.
def Value.Fits : Option Bound → Value → Prop
  | none, value => value.Plain
  | some bound, value => value.Within bound.known

def Bindings.Fits (bound : Option Bound) (bindings : Bindings) : Prop := bindings.All (Value.Fits bound)

def GivenFits (bound : Option Bound) (given : Option Value) : Prop := ∀ value, given = some value → value.Fits bound

structure Frame.Fits (bound : Option Bound) (frame : Frame) : Prop where
  bindings : frame.bindings.Fits bound
  returned : GivenFits bound frame.returned

namespace Machine

-- No code of a host's own waits in the machine; if only some tasks are looked at, nothing waits that could settle
-- one.
def Suits : Option Bound → Machine → Prop
  | none, machine =>
    (∀ info ∈ machine.classes.classes, info.hidden.All Member.Ordinary) ∧
      (∀ microtask ∈ machine.microtasks, ∀ actions, microtask ≠ .host actions) ∧
      ∀ entry ∈ machine.events, ∀ turns next, entry.2 ≠ some (.host turns next)
  | some bound, machine =>
    (machine.tasks.count = bound.total ∧ bound.known ≤ bound.total) ∧ machine.microtasks = [] ∧ machine.events = [] ∧
      bound.named ≤ machine.nextIdentity

-- All values that the machine keeps for scripts are ones that a lens is for.
structure Fits (bound : Option Bound) (machine : Machine) : Prop where
  classes : ∀ info ∈ machine.classes.classes, info.members.All (Value.Fits bound)
  frames : machine.frames.Holds fun _ frame => frame.Fits bound
  tasks : ∀ task value, machine.tasks.state? task = some (.ready value) → value.Fits bound
  suits : machine.Suits bound

-- Tasks are never taken back. No line makes others ready: that is left to the scheduler.
structure Grows (line : Prop) (before after : Machine) : Prop where
  tasks : before.tasks.count ≤ after.tasks.count
  ready : line → after.ready = before.ready

theorem Grows.refl {line : Prop} {machine : Machine} : machine.Grows line machine := ⟨Nat.le_refl _, fun _ => rfl⟩

theorem Grows.same {line : Prop} {before after : Machine} (tasks : after.tasks = before.tasks)
    (ready : line → after.ready = before.ready) : before.Grows line after :=
  ⟨(congrArg TaskTable.count tasks).symm.le, ready⟩

theorem Grows.trans {line : Prop} {before middle after : Machine} (first : before.Grows line middle)
    (second : middle.Grows line after) : before.Grows line after :=
  ⟨first.tasks.trans second.tasks, fun isLine => (second.ready isLine).trans (first.ready isLine)⟩

theorem fits_passed (bound : Option Bound) (machine : Machine) (time : Nat) :
    (machine.pass time).Fits bound ↔ machine.Fits bound := by
  cases bound <;> exact ⟨fun ⟨classes, frames, tasks, suits⟩ => ⟨classes, frames, tasks, suits⟩,
    fun ⟨classes, frames, tasks, suits⟩ => ⟨classes, frames, tasks, suits⟩⟩

end Machine

namespace Outcome
variable {α β : Type}

-- A run ends in a machine of a script with no task fewer, and if it is a run for a line, with the same lines ready.
def Kept (line : Prop) (before : Machine) (good : α → Prop) : Outcome α → Prop
  | .done value machine => machine.Fits none ∧ before.Grows line machine ∧ good value
  | .failed _ machine => machine.Fits none ∧ before.Grows line machine
  | .outOfFuel => True

/-- The second run is what is seen of the first, at another time: so much has gone by before each of them. Nothing is said
of it once the first has made a task that is not looked at, or has not ended within its fuel and need not be told from runs
that do. -/
inductive Seen (lens : Lens) (early late : Nat) (see : α → β) (good : α → Prop) : Outcome α → Outcome β → Prop where
  | done (value : α) (machine : Machine) (fits : machine.Fits lens.bound) (fine : good value) :
      Seen lens early late see good (.done value (machine.pass early)) (.done (see value) ((lens.machine machine).pass late))
  | failed (failure : Failure) (machine : Machine) (fits : machine.Fits lens.bound) :
      Seen lens early late see good (.failed failure (machine.pass early))
        (.failed (lens.failure failure) ((lens.machine machine).pass late))
  | outOfFuel : Seen lens early late see good .outOfFuel .outOfFuel
  | short (other : Outcome β) (inexact : ¬ lens.exact) : Seen lens early late see good .outOfFuel other
  | escaped (outcome : Outcome α) (other : Outcome β) (bound : Bound) (bounded : lens.bound = some bound)
      (more : ∀ machine, outcome.Leaves machine → bound.total < machine.tasks.count) :
      Seen lens early late see good outcome other

end Outcome

-- What waits may wait for a time. So only where nothing waits may the times be different ones.
def Lens.Shifts (lens : Lens) (early late : Nat) : Prop := lens.bound = none → early = 0 ∧ late = 0

-- What is done while others have runners is done for a line; the scheduler is looked at as a whole.
def Lens.Inside (lens : Lens) : Prop := lens.outer ≠ []

structure Exec.Through {α β : Type} (lens : Lens) (given : Option Bound → Prop) (step : Exec α) (twin : Exec β)
    (see : α → β) (good : Option Bound → α → Prop) : Prop where
  kept : given none → ∀ machine : Machine, machine.Fits none → (step machine).Kept lens.Inside machine (good none)
  timed : given none → given lens.bound → ∀ (machine : Machine) (early late : Nat), lens.Shifts early late →
    machine.Fits none → machine.Fits lens.bound →
    (step (machine.pass early)).Seen lens early late see (good lens.bound) (twin ((lens.machine machine).pass late))

namespace Outcome
variable {α β : Type} {line : Prop} {before : Machine} {good : α → Prop} {outcome : Outcome α}

theorem kept_grows (kept : outcome.Kept line before good) (machine : Machine) (left : outcome.Leaves machine) :
    machine.Fits none ∧ before.Grows line machine := by
  rcases left with ⟨value, rfl⟩ | ⟨failure, rfl⟩
  · exact ⟨kept.1, kept.2.1⟩
  · exact kept

theorem kept_left (kept : outcome.Kept line before good) (machine : Machine) (left : outcome.Leaves machine) :
    machine.Fits none ∧ before.tasks.count ≤ machine.tasks.count :=
  (kept_grows kept machine left).imp_right Machine.Grows.tasks

end Outcome

def Lens.outcome {α β : Type} (lens : Lens) (see : α → β) : Except Failure α → Except Failure β
  | .ok value => .ok (see value)
  | .error failure => .error (lens.failure failure)

namespace Exec
variable {α β γ δ σ τ : Type} {lens : Lens} {given : Option Bound → Prop} {step : Exec α} {twin : Exec β} {see : α → β}
  {good : Option Bound → α → Prop}

theorem Through.seen (through : step.Through lens given twin see good) (plain : given none) (fine : given lens.bound)
    (machine : Machine) (tame : machine.Fits none) (fits : machine.Fits lens.bound) :
    (step machine).Seen lens 0 0 see (good lens.bound) (twin (lens.machine machine)) :=
  through.timed plain fine machine 0 0 (fun _ => ⟨rfl, rfl⟩) tame fits

theorem through_bind {next : α → Exec γ} {later : β → Exec δ} {see' : γ → δ} {fine : Option Bound → γ → Prop}
    (through : step.Through lens given twin see good)
    (further : ∀ value, (next value).Through lens (fun bound => given bound ∧ good bound value) (later (see value)) see' fine) :
    (step >>= next).Through lens given (twin >>= later) see' fine := by
  have keeps : given none → ∀ machine : Machine, machine.Fits none →
      ((step >>= next) machine).Kept lens.Inside machine (fine none) := by
    intro plain machine tame
    have kept := through.kept plain machine tame
    cases ran : step machine with
    | done value middle =>
      rw [ran] at kept
      rw [bind_done _ _ _ _ _ ran]
      have rest := (further value).kept ⟨plain, kept.2.2⟩ middle kept.1
      generalize next value middle = outcome at rest ⊢
      cases outcome with
      | done result after => exact ⟨rest.1, kept.2.1.trans rest.2.1, rest.2.2⟩
      | failed failure after => exact ⟨rest.1, kept.2.1.trans rest.2⟩
      | outOfFuel => trivial
    | failed failure middle =>
      rw [ran] at kept
      rw [bind_failed _ _ _ _ _ ran]
      exact kept
    | outOfFuel =>
      rw [bind_exhausted _ _ _ ran]
      trivial
  refine ⟨keeps, fun plain fits machine early late shifts tame fit => ?_⟩
  have kept := through.kept plain (machine.pass early) ((machine.fits_passed none early).mpr tame)
  have seen := through.timed plain fits machine early late shifts tame fit
  generalize ran : step (machine.pass early) = outcome at kept seen
  generalize ranTwin : twin ((lens.machine machine).pass late) = other at seen
  cases seen with
  | done value middle middleFits fineValue =>
    rw [bind_done _ _ _ _ _ ran, bind_done _ _ _ _ _ ranTwin]
    exact (further value).timed ⟨plain, kept.2.2⟩ ⟨fits, fineValue⟩ middle early late shifts
      ((middle.fits_passed none early).mp kept.1) middleFits
  | failed failure middle middleFits =>
    rw [bind_failed _ _ _ _ _ ran, bind_failed _ _ _ _ _ ranTwin]
    exact .failed failure middle middleFits
  | outOfFuel =>
    rw [bind_exhausted _ _ _ ran, bind_exhausted _ _ _ ranTwin]
    exact .outOfFuel
  | short _ inexact =>
    rw [bind_exhausted _ _ _ ran]
    exact .short _ inexact
  | escaped _ _ bound bounded more =>
    -- What comes after a task was made cannot take it back.
    refine .escaped _ _ bound bounded fun after left => ?_
    rcases leaves_bind step next (machine.pass early) after left with first | ⟨value, middle, done, last⟩
    · exact more after (ran ▸ first)
    · have here : outcome = .done value middle := ran.symm.trans done
      subst here
      have rest := (further value).kept ⟨plain, kept.2.2⟩ middle kept.1
      exact (more middle (.inl ⟨value, rfl⟩)).trans_le (Outcome.kept_left rest after last).2

theorem through_pure (value : α) (other : β) (same : other = see value)
    (fine : ∀ bound, given bound → good bound value) :
    (Pure.pure value : Exec α).Through lens given (Pure.pure other) see good := by
  subst same
  exact ⟨fun plain _ tame => ⟨tame, .refl, fine none plain⟩,
    fun _ fits machine _ _ _ _ fit => .done value machine fit (fine lens.bound fits)⟩

theorem through_read (view : Machine → α) (other : Machine → β)
    (natural : ∀ (machine : Machine) (early late : Nat), given lens.bound → lens.Shifts early late →
      machine.Fits lens.bound → other ((lens.machine machine).pass late) = see (view (machine.pass early)))
    (fine : ∀ (bound : Option Bound) (machine : Machine), given bound → machine.Fits bound → good bound (view machine)) :
    (read view).Through lens given (read other) see good := by
  refine ⟨fun plain machine tame => ⟨tame, .refl, fine none machine plain tame⟩,
    fun _ fits machine early late shifts _ fit => ?_⟩
  show Outcome.Seen lens early late see _ _
    (.done (other ((lens.machine machine).pass late)) ((lens.machine machine).pass late))
  rw [natural machine early late fits shifts fit]
  exact .done (view (machine.pass early)) machine fit
    (fine lens.bound (machine.pass early) fits ((machine.fits_passed _ early).mpr fit))

theorem through_look (view : Machine → α)
    (natural : ∀ (machine : Machine) (early late : Nat),
      view ((lens.machine machine).pass late) = view (machine.pass early)) :
    (read view).Through lens given (read view) id fun _ _ => True :=
  through_read view view (fun machine early late _ _ _ => natural machine early late) fun _ _ _ _ => trivial

theorem through_modify (change other : Machine → Machine)
    (natural : ∀ (machine : Machine) (early late : Nat), given lens.bound → lens.Shifts early late →
      machine.Fits lens.bound → change (machine.pass early) = (change machine).pass early ∧
        other ((lens.machine machine).pass late) = (lens.machine (change machine)).pass late)
    (fits : ∀ (bound : Option Bound) (machine : Machine), given bound → machine.Fits bound → (change machine).Fits bound)
    (tasks : ∀ machine : Machine, (change machine).tasks = machine.tasks)
    (ready : lens.Inside → ∀ machine : Machine, (change machine).ready = machine.ready) :
    (modify change).Through lens given (modify other) id fun _ _ => True := by
  refine ⟨fun plain machine tame => ⟨fits none machine plain tame,
      .same (tasks machine) fun inside => ready inside machine, trivial⟩,
    fun _ given machine early late shifts _ fit => ?_⟩
  obtain ⟨changed, seen⟩ := natural machine early late given shifts fit
  show Outcome.Seen lens early late id _ (.done () (change (machine.pass early)))
    (.done () (other ((lens.machine machine).pass late)))
  rw [changed, seen]
  exact .done () (change machine) (fits lens.bound machine given fit) trivial

theorem through_raise (failure other : Failure) (same : other = lens.failure failure) :
    (raise failure : Exec α).Through lens given (raise other : Exec β) see good := by
  subst same
  exact ⟨fun _ _ tame => ⟨tame, .refl⟩, fun _ _ machine _ _ _ _ fit => .failed failure machine fit⟩

theorem through_fail (cause : Cause) : (fail cause : Exec α).Through lens given (fail cause : Exec β) see good :=
  through_raise _ _ (lens.failure_of cause).symm

theorem through_fail_at (cause : Cause) (position : Position) :
    (failAt cause position : Exec α).Through lens given (failAt cause (lens.spot position) : Exec β) see good :=
  through_raise _ _ (lens.failure_located cause position).symm

theorem through_exhausted : (exhausted : Exec α).Through lens given (exhausted : Exec β) see good :=
  ⟨fun _ _ _ => trivial, fun _ _ _ _ _ _ _ _ => .outOfFuel⟩

theorem through_short (other : Exec β) (inexact : ¬ lens.exact) : (exhausted : Exec α).Through lens given other see good :=
  ⟨fun _ _ _ => trivial, fun _ _ _ _ _ _ _ _ => .short _ inexact⟩

theorem through_given {less : Option Bound → Prop} (through : step.Through lens given twin see good)
    (enough : ∀ bound, less bound → given bound) : step.Through lens less twin see good :=
  ⟨fun plain => through.kept (enough none plain), fun plain fits => through.timed (enough none plain) (enough _ fits)⟩

theorem through_weaken {fine : Option Bound → α → Prop} (through : step.Through lens given twin see good)
    (weaker : ∀ bound value, given bound → good bound value → fine bound value) : step.Through lens given twin see fine := by
  refine ⟨fun plain machine tame => ?_, fun plain fits machine early late shifts tame fit => ?_⟩
  · have kept := through.kept plain machine tame
    generalize step machine = outcome at kept ⊢
    cases outcome with
    | done value after => exact ⟨kept.1, kept.2.1, weaker none value plain kept.2.2⟩
    | failed | outOfFuel => exact kept
  · have seen := through.timed plain fits machine early late shifts tame fit
    generalize step (machine.pass early) = outcome at seen ⊢
    generalize twin ((lens.machine machine).pass late) = other at seen ⊢
    cases seen with
    | done value after afterFits fineValue => exact .done value after afterFits (weaker _ value fits fineValue)
    | failed failure after afterFits => exact .failed failure after afterFits
    | outOfFuel => exact .outOfFuel
    | short _ inexact => exact .short _ inexact
    | escaped _ _ bound bounded more => exact .escaped _ _ bound bounded more

theorem through_map_failure (change other : Failure → Failure)
    (natural : ∀ failure, lens.failure (change failure) = other (lens.failure failure))
    (through : step.Through lens given twin see good) :
    (step.mapFailure change).Through lens given (twin.mapFailure other) see good := by
  refine ⟨fun plain machine tame => ?_, fun plain fits machine early late shifts tame fit => ?_⟩
  · have kept := through.kept plain machine tame
    unfold mapFailure
    generalize step machine = outcome at kept ⊢
    cases outcome <;> exact kept
  · have seen := through.timed plain fits machine early late shifts tame fit
    unfold mapFailure
    generalize step (machine.pass early) = outcome at seen ⊢
    generalize twin ((lens.machine machine).pass late) = otherOutcome at seen ⊢
    cases seen with
    | done value after afterFits fineValue => exact .done value after afterFits fineValue
    | failed failure after afterFits =>
      simp only [← natural]
      exact .failed (change failure) after afterFits
    | outOfFuel => exact .outOfFuel
    | short _ inexact => exact .short _ inexact
    | escaped _ _ bound bounded more =>
      refine .escaped _ _ bound bounded fun after left => ?_
      cases outcome with
      | outOfFuel => rcases left with ⟨_, same⟩ | ⟨_, same⟩ <;> cases same
      | done value middle =>
        rcases left with ⟨_, same⟩ | ⟨_, same⟩ <;> cases same
        exact more _ (.inl ⟨value, rfl⟩)
      | failed failure middle =>
        rcases left with ⟨_, same⟩ | ⟨_, same⟩ <;> cases same
        exact more _ (.inr ⟨failure, rfl⟩)

theorem through_attempt (through : step.Through lens given twin see good) :
    step.attempt.Through lens given twin.attempt (lens.outcome see) fun bound outcome =>
      ∀ value, outcome = .ok value → good bound value := by
  refine ⟨fun plain machine tame => ?_, fun plain fits machine early late shifts tame fit => ?_⟩
  · have kept := through.kept plain machine tame
    unfold attempt
    generalize step machine = outcome at kept ⊢
    cases outcome with
    | done value after => exact ⟨kept.1, kept.2.1, fun other same => by cases same; exact kept.2.2⟩
    | failed failure after => exact ⟨kept.1, kept.2, fun other same => nomatch same⟩
    | outOfFuel => trivial
  · have seen := through.timed plain fits machine early late shifts tame fit
    unfold attempt
    generalize step (machine.pass early) = outcome at seen ⊢
    generalize twin ((lens.machine machine).pass late) = otherOutcome at seen ⊢
    cases seen with
    | done value after afterFits fineValue =>
      exact .done (.ok value : Except Failure α) after afterFits fun other same => by cases same; exact fineValue
    | failed failure after afterFits =>
      exact .done (.error failure : Except Failure α) after afterFits fun other same => nomatch same
    | outOfFuel => exact .outOfFuel
    | short _ inexact => exact .short _ inexact
    | escaped _ _ bound bounded more =>
      refine .escaped _ _ bound bounded fun after left => ?_
      cases outcome with
      | outOfFuel => rcases left with ⟨_, same⟩ | ⟨_, same⟩ <;> cases same
      | done value middle =>
        rcases left with ⟨_, same⟩ | ⟨_, same⟩ <;> cases same
        exact more _ (.inl ⟨value, rfl⟩)
      | failed failure middle =>
        rcases left with ⟨_, same⟩ | ⟨_, same⟩ <;> cases same
        exact more _ (.inr ⟨failure, rfl⟩)

theorem through_of_outcome (outcome : Except Failure α)
    (fine : ∀ bound, given bound → ∀ value, outcome = .ok value → good bound value) :
    (ofOutcome outcome).Through lens given (ofOutcome (lens.outcome see outcome)) see good := by
  cases outcome with
  | ok value => exact through_pure value _ rfl fun bound plain => fine bound plain value rfl
  | error failure => exact through_raise failure _ rfl

theorem through_guard (condition : Prop) [Decidable condition] (first other : Exec Unit) (rest : Unit → Exec α)
    (later : Unit → Exec β) (through : first.Through lens given other id fun _ _ => True)
    (further : (rest ()).Through lens given (later ()) see good) :
    (if condition then first >>= rest else rest ()).Through lens given (if condition then other >>= later else later ())
      see good := by
  split
  · exact through_bind through fun _ => through_given further fun _ both => both.1
  · exact further

def seeRound (see : σ → τ) (see' : α → β) : σ ⊕ α → τ ⊕ β := Sum.map see see'

theorem through_iterate (step : σ → Exec (σ ⊕ α)) (twin : τ → Exec (τ ⊕ β)) (seeState : σ → τ)
    (fineState : Option Bound → σ → Prop)
    (through : ∀ state, (step state).Through lens (fun bound => given bound ∧ fineState bound state) (twin (seeState state))
      (seeRound seeState see) fun bound => Sum.elim (fineState bound) (good bound))
    (fuel more : Nat) (fewer : fuel ≤ more) (same : lens.exact → fuel = more) (state : σ) :
    (iterate step fuel state).Through lens (fun bound => given bound ∧ fineState bound state)
      (iterate twin more (seeState state)) see good := by
  induction fuel generalizing state more with
  | zero =>
    by_cases exact_ : lens.exact
    · rw [← same exact_]
      exact through_exhausted
    · exact through_short _ exact_
  | succ fuel ih =>
    obtain ⟨more, rfl⟩ : ∃ less, more = less + 1 := ⟨more - 1, by omega⟩
    rw [iterate_unrolled, iterate_unrolled]
    refine through_bind (through state) fun result => ?_
    cases result with
    | inl next =>
      refine through_given (ih more (by omega) (fun exact_ => by have := same exact_; omega) next) ?_
      exact fun bound both => ⟨both.1.1, both.2⟩
    | inr value => exact through_pure value _ rfl fun bound both => both.2

theorem through_collect (action : γ → Exec α) (twin : δ → Exec β) (seeItem : γ → δ) (items : List γ)
    (through : ∀ item ∈ items, (action item).Through lens given (twin (seeItem item)) see good) :
    (collect action items).Through lens given (collect twin (items.map seeItem)) (List.map see) fun bound values =>
      ∀ value ∈ values, good bound value := by
  induction items with
  | nil => exact through_pure [] [] rfl fun _ _ _ member => by cases member
  | cons first rest ih =>
    refine through_bind (through first List.mem_cons_self) fun value => ?_
    refine through_bind (through_given (ih fun item member => through item (List.mem_cons_of_mem _ member))
      fun _ both => both.1) fun values => ?_
    exact through_pure _ _ rfl fun bound all => List.forall_mem_cons.mpr ⟨all.1.2, all.2⟩

theorem through_each (action : γ → Exec Unit) (twin : δ → Exec Unit) (seeItem : γ → δ) (items : List γ)
    (through : ∀ item ∈ items, (action item).Through lens given (twin (seeItem item)) id fun _ _ => True) :
    (each action items).Through lens given (each twin (items.map seeItem)) id fun _ _ => True := by
  induction items with
  | nil => exact through_pure () () rfl fun _ _ => trivial
  | cons first rest ih =>
    refine through_bind (through first List.mem_cons_self) fun _ => ?_
    exact through_given (ih fun item member => through item (List.mem_cons_of_mem _ member)) fun _ both => both.1

theorem through_each_same (action twin : γ → Exec Unit) (items : List γ)
    (through : ∀ item ∈ items, (action item).Through lens given (twin item) id fun _ _ => True) :
    (each action items).Through lens given (each twin items) id fun _ _ => True := by
  have each := through_each action twin id items through
  rw [List.map_id] at each
  exact each

end Exec
end CoopScript
