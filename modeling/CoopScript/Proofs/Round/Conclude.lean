import CoopScript.Proofs.Await.Wait
import CoopScript.Proofs.Coherent.Request
import CoopScript.Proofs.Round.Follow

set_option autoImplicit false
namespace CoopScript

namespace Machine

def closing (machine : Machine) (id : RunnerId) (ready : List Line) : Machine :=
  { machine with
    ready := ready
    runners := []
    runnerCount := machine.runnerCount + id.number
    frames := (machine.frames.release Arena.root).1 }

end Machine

namespace Exec
variable (machine : Machine) (held : List FrameId) (core : machine.Core (Arena.root :: held)) (id : RunnerId) (runner : Runner)
  (outermost : runner.frame = Arena.root)
include core outermost

theorem finish_hosted (ready : List Line) :
    finishRunner id (machine.hosting id runner ready) = .done runner.last (machine.closing id ready) := by
  have known : (machine.hosting id runner ready).runner? id = some runner := by simp [Machine.runner?, Machine.hosting]
  have ledger : machine.frames.Kept (Arena.root :: (Stage.mk [] held machine).owners) := by
    refine Arena.kept_counts _ _ _ core.sound.ledger fun other => ?_
    simp only [Stage.count_owners, List.count_cons]
    omega
  obtain ⟨frames, released, _⟩ := Arena.kept_release machine.frames _ Arena.root ledger
  rw [finish_known id _ runner known, outermost, show (machine.hosting id runner ready).frames = machine.frames from rfl,
    released]
  simp [Machine.closing, Machine.hosting, Machine.swapErase, released]

-- Where nothing waits, dropping all work finishes the runner.
theorem reset_hosted (microtasks : machine.microtasks = []) (events : machine.events = []) :
    reset (machine.hosting id runner []) = .done () (machine.closing id []) := by
  have frames : machine.asyncFrames = [] := by
    have waiting : machine.asyncFrames = machine.microtasks.filterMap Microtask.frame? := core.sound.waiting
    rw [waiting, microtasks]
    rfl
  have depth : machine.depth = 0 := core.sound.depth
  have dropped : ({ machine.hosting id runner [] with microtasks := [], asyncFrames := [] } : Machine) =
      machine.hosting id runner [] := by
    rw [← microtasks, ← frames]
    rfl
  have finished : each (fun id => do let _ ← finishRunner id) [id] (machine.hosting id runner []) =
      .done () (machine.closing id []) := by
    have done : (do let _ ← finishRunner id : Exec Unit) (machine.hosting id runner []) = .done () (machine.closing id []) :=
      bind_done _ _ _ _ _ (finish_hosted machine held core id runner outermost [])
    exact bind_done _ _ _ _ _ done
  unfold reset
  rw [modify_then, read_then, modify_then, show (machine.hosting id runner []).asyncFrames = [] from frames]
  show (each releaseFrame [] >>= _) { machine.hosting id runner [] with microtasks := [], asyncFrames := [] } = _
  rw [dropped, bind_done (each releaseFrame []) _ _ _ () rfl, read_then]
  show (each (fun id => do let _ ← finishRunner id) [id] >>= _) (machine.hosting id runner []) = _
  rw [bind_done _ _ _ _ _ finished]
  simp [modify, Machine.closing, events, depth]

end Exec

namespace Lens

theorem untimed_deaf (count : Nat) : ∀ identity : Nat, false = true →
    ∃ few, some (⟨count, count, 0⟩ : Bound) = some few ∧ identity < few.named :=
  fun _ deaf => absurd deaf Bool.false_ne_true

-- All is seen as it is, whatever the time is, as long as no task is made.
def untimed (count : Nat) : Lens where
  blurs := false
  deaf _ := false
  offset := 0
  outer := []
  bound := some ⟨count, count, 0⟩
  extra := []
  exact := True
  outside := none_outside
  hears := untimed_deaf count

@[simp] theorem untimed_value (count : Nat) (value : Value) : (untimed count).value value = value :=
  (untimed count).value_same rfl value (value.bears_all _ fun _ => rfl)

theorem untimed_ran (count : Nat) (ran : Option Value × List Node) : Engine.seeRan (untimed count) ran = ran := by
  obtain ⟨_ | value, lines⟩ := ran <;> simp [Engine.seeRan, (untimed count).lines_sharp rfl]

theorem untimed_machine (count : Nat) (machine : Machine) (counted : machine.tasks.count = count) :
    (untimed count).machine machine = machine := by
  have kept := machine.keeps_all (untimed_value count)
  have tasks : (untimed count).tasks machine.tasks = machine.tasks := by
    rw [(untimed count).tasks_same _ kept.tasks _ rfl counted.symm]
    simp [untimed]
  rw [(untimed count).machine_same rfl rfl rfl machine kept, tasks]

end Lens

-- The machine fits where all its tasks are looked at, and no others.
def Machine.Contained (machine : Machine) : Prop := machine.Fits (some ⟨machine.tasks.count, machine.tasks.count, 0⟩)

namespace Engine
variable (fuel : Nat) (lines : List Node) (machine : Machine) (tame : machine.Fits none) (contained : machine.Contained)
include tame contained

-- Lines that make no task do not see what time it is.
theorem follow_untimed (early late : Nat) (after : Machine)
    (left : ((RuleSet.standard.engine fuel).follow lines (machine.pass early)).Leaves after)
    (few : after.tasks.count ≤ machine.tasks.count) : ∃ ended : Outcome (Option Value × List Node),
      (RuleSet.standard.engine fuel).follow lines (machine.pass early) = ended.pass early ∧
        (RuleSet.standard.engine fuel).follow lines (machine.pass late) = ended.pass late ∧
        after.Contained ∧ after.tasks.count = machine.tasks.count := by
  -- With nothing that waits and all tasks in view, two times may be looked at.
  let lens := Lens.untimed machine.tasks.count
  have through : Exec.Through lens (fun _ => True) _ _ _ _ :=
    follow_through lines (RuleSet.through_engine lens fuel fuel (Nat.le_refl _) fun _ => rfl)
  have seen := through.timed trivial trivial machine early late (fun all => nomatch all) tame contained
  obtain ⟨ended, first, second, fits, _⟩ := Outcome.seen_timed early late seen after left fun bound bounded => by
    cases bounded
    exact few
  have counted : after.tasks.count = machine.tasks.count := fits.suits.1.1
  rw [lens.lines_sharp rfl, Lens.untimed_machine _ machine rfl] at second
  have stays : after.Contained := by
    unfold Machine.Contained
    rw [counted]
    exact fits
  refine ⟨ended, first, second.trans (congrArg (Outcome.pass late) ?_), stays, counted⟩
  rw [first] at left
  cases ended with
  | done ran last =>
    obtain rfl := (Outcome.done_leaves _ _ after).mp left
    rw [Lens.ending, Lens.untimed_ran, Lens.untimed_machine _ last counted]
  | failed failure last =>
    obtain rfl := (Outcome.failed_leaves _ _ after).mp left
    rw [Lens.ending, lens.failure_sharp rfl, Lens.untimed_machine _ last counted]
  | outOfFuel => rfl

theorem follow_contained (after : Machine) (left : ((RuleSet.standard.engine fuel).follow lines machine).Leaves after)
    (few : after.tasks.count ≤ machine.tasks.count) : after.Contained ∧ after.tasks.count = machine.tasks.count := by
  obtain ⟨_, _, _, stays⟩ := follow_untimed fuel lines machine tame contained 0 0 after left few
  exact stays

end Engine

-- How a program ends whose lines, when they are followed, end as the first outcome says. Nothing is said if more
-- tasks are made than there may be.
inductive Outcome.Concluded (id : RunnerId) (last : Option Value) (few : Nat) :
    Outcome (Option Value × List Node) → Outcome Value → Prop where
  | done (value : Option Value) (left : List Node) (machine : Machine) : Concluded id last few (.done (value, left) machine)
      (.done ((value.or last).getD machine.classes.void) (machine.closing id (machine.carrying id left none).ready))
  | failed (failure : Failure) (machine : Machine) :
      Concluded id last few (.failed failure machine) (.failed failure (machine.closing id []))
  | outOfFuel : Concluded id last few .outOfFuel .outOfFuel
  | escaped (followed : Outcome (Option Value × List Node)) (outcome : Outcome Value)
      (more : ∀ after, followed.Leaves after → few < after.tasks.count)
      (further : ∀ after, outcome.Leaves after → few < after.tasks.count) : Concluded id last few followed outcome

namespace Outcome
variable {id : RunnerId} {last : Option Value} {few : Nat}

theorem concluded_done (value : Option Value) (left : List Node) (machine : Machine) (outcome : Outcome Value)
    (less : machine.tasks.count ≤ few) (concluded : (done (value, left) machine).Concluded id last few outcome) :
    outcome = .done ((value.or last).getD machine.classes.void) (machine.closing id (machine.carrying id left none).ready) := by
  cases concluded with
  | done => rfl
  | escaped _ _ more => exact absurd (more machine (.inl ⟨_, rfl⟩)) (Nat.not_lt.mpr less)

theorem concluded_failed (failure : Failure) (machine : Machine) (outcome : Outcome Value)
    (less : machine.tasks.count ≤ few) (concluded : (failed failure machine).Concluded id last few outcome) :
    outcome = .failed failure (machine.closing id []) := by
  cases concluded with
  | failed => rfl
  | escaped _ _ more => exact absurd (more machine (.inr ⟨_, rfl⟩)) (Nat.not_lt.mpr less)

theorem concluded_left (followed : Outcome (Option Value × List Node)) (outcome : Outcome Value)
    (concluded : followed.Concluded id last few outcome) (after : Machine) (left : outcome.Leaves after)
    (less : after.tasks.count ≤ few) : ∃ core, followed.Leaves core ∧ core.tasks.count ≤ few := by
  cases concluded with
  | done value rest machine =>
    obtain rfl := (done_leaves _ _ after).mp left
    exact ⟨machine, .inl ⟨_, rfl⟩, less⟩
  | failed failure machine =>
    obtain rfl := (failed_leaves _ _ after).mp left
    exact ⟨machine, .inr ⟨_, rfl⟩, less⟩
  | outOfFuel => exact absurd left (exhausted_leaves after)
  | escaped _ _ _ further => exact absurd (further after left) (Nat.not_lt.mpr less)

end Outcome

namespace Engine
variable (fuel : Nat) (id : RunnerId) (machine after : Machine)

theorem hosting_fits (runner : Runner) (ready : List Line) (tame : machine.Fits none) :
    (machine.hosting id runner ready).Fits none :=
  Machine.fits_same tame _ rfl rfl rfl rfl rfl (Nat.le_refl _)

theorem finishing_counts (outcome : Except Failure Unit) (tame : machine.Fits none)
    (left : (finishing id outcome machine).Leaves after) : machine.tasks.count ≤ after.tasks.count := by
  have through : Exec.Through .whole (fun bound => bound = none) _ _ _ _ := finishing_through rfl id outcome fun _ all => all
  exact (Outcome.kept_left (through.kept rfl machine tame) after left).2

theorem after_lines_counts (rounds : Nat) (report : TickReport) (tame : machine.Fits none)
    (left : (((RuleSet.standard.engine fuel).afterLines rounds report).attempt >>= finishing id) machine |>.Leaves after) :
    machine.tasks.count ≤ after.tasks.count := by
  have through := RuleSet.through_engine .whole fuel fuel (Nat.le_refl _) fun _ => rfl
  have whole : Exec.Through .whole (fun bound => bound = none) _ _ _ _ := Exec.through_bind
    (Exec.through_attempt (after_lines_through through rfl rounds report)) fun outcome =>
      finishing_through rfl id outcome fun bound both => both.1
  exact (Outcome.kept_left (whole.kept rfl machine tame) after left).2

section Finishing
variable (held : List FrameId) (core : machine.Core (Arena.root :: held)) (runner : Runner)
  (outermost : runner.frame = Arena.root)
include core outermost

theorem finishing_done (ready : List Line) : finishing id (.ok ()) (machine.hosting id runner ready) =
    .done (runner.last.getD machine.classes.void) (machine.closing id ready) := by
  refine (Exec.bind_done _ _ _ _ _ (Exec.finish_hosted machine held core id runner outermost ready)).trans ?_
  cases runner.last <;> rfl

theorem finishing_failed (failure : Failure) (microtasks : machine.microtasks = []) (events : machine.events = []) :
    finishing id (.error failure) (machine.hosting id runner []) = .failed failure (machine.closing id []) :=
  Exec.bind_done _ _ _ _ _ (Exec.reset_hosted machine held core id runner outermost microtasks events)

end Finishing

section Concluded
variable (held : List FrameId) (core : machine.Core (Arena.root :: held)) (few : Nat)
  (quiet : machine.tasks.count ≤ few → machine.Contained) (last : Option Value)
include core quiet

theorem failed_concluded (failure : Failure) (runner : Runner) (outermost : runner.frame = Arena.root) :
    (Outcome.failed failure machine).Concluded id last few (finishing id (.error failure) (machine.hosting id runner [])) := by
  -- Unless more tasks have been made than there may be, nothing waits that could be dropped with the program.
  rcases Nat.lt_or_ge few machine.tasks.count with more | less
  · refine .escaped _ _ (fun after left => ?_) fun after left => ?_
    · obtain rfl := (Outcome.failed_leaves _ _ after).mp left
      exact more
    · have tame := hosting_fits id machine runner [] core.fits
      exact more.trans_le (finishing_counts id (machine.hosting id runner []) after (.error failure) tame left)
  · have waits := (quiet less).suits.2
    rw [finishing_failed id machine held core runner outermost failure waits.1 waits.2.1]
    exact .failed failure machine

theorem done_concluded (value : Option Value) (left : List Node) (stopped : left = [] ∨ machine.halted = true)
    (report : TickReport) (only : report.OnlyLines) (some_fuel : 0 < (RuleSet.standard.engine fuel).fuel)
    (rounds : Nat) (enough : machine.config.idleLimit < rounds) :
    (Outcome.done (value, left) machine).Concluded id last few
      ((((RuleSet.standard.engine fuel).afterLines rounds report).attempt >>= finishing id)
        (machine.carrying id left (value.or last))) := by
  let track : Track := ⟨id, Arena.root, none, left⟩
  -- Unless more tasks have been made than there may be, nothing has come to wait.
  rcases Nat.lt_or_ge few machine.tasks.count with more | less
  · refine .escaped _ _ (fun after ended => ?_) fun after ended => ?_
    · obtain rfl := (Outcome.done_leaves _ _ after).mp ended
      exact more
    · have tame := hosting_fits id machine (track.state (value.or last)) track.queue.head?.toList core.fits
      exact more.trans_le (after_lines_counts fuel id (machine.carrying id left (value.or last)) after rounds report tame ended)
  · have waits := (quiet less).suits.2
    have stopped : (machine.carrying id left (value.or last)).halted = true ∨
        (machine.carrying id left (value.or last)).ready = [] := by
      rcases stopped with rfl | halted
      · exact .inr rfl
      · exact .inl halted
    have idle := after_lines_spent (RuleSet.standard.engine fuel) (machine.carrying id left (value.or last)) some_fuel
      ⟨stopped, waits.1, waits.2.1⟩ report only rounds enough
    rw [Exec.bind_done _ _ _ (machine.carrying id left (value.or last)) (.ok ()) (by rw [Exec.attempt, idle])]
    have finished := finishing_done id machine held core (track.state (value.or last)) rfl track.queue.head?.toList
    exact finished ▸ .done value left machine

end Concluded

-- A program ends as its lines do when they are followed.
theorem concluded (held : List FrameId) (core : machine.Core (Arena.root :: held)) (contained : machine.Contained)
    (lines : List Node) (last : Option Value) (enough : lines.length + machine.config.idleLimit + 1 < fuel) :
    ((RuleSet.standard.engine fuel).follow lines machine).Concluded id last machine.tasks.count
      (((RuleSet.standard.engine fuel).run.attempt >>= finishing id) (machine.carrying id lines last)) := by
  obtain ⟨rounds, rfl⟩ : ∃ rounds, fuel = rounds + 1 := ⟨fuel - 1, by omega⟩
  let engine := RuleSet.standard.engine (rounds + 1)
  have parts : engine.run (machine.carrying id lines last) = (Exec.iterate engine.lineStep (rounds + 1) .empty >>=
      engine.afterLines rounds) (machine.carrying id lines last) := by
    rw [engine.run_parts rounds rfl]
    rfl
  have carried : (engine.follow lines machine).Carried id last
      (Exec.iterate engine.lineStep (rounds + 1) .empty (machine.carrying id lines last)) :=
    lines_carried (rounds + 1) _ id lines machine core last .empty ⟨rfl, rfl, rfl⟩ (rounds + 1) (by omega)
  have stays (after : Machine) (left : (engine.follow lines machine).Leaves after) :=
    (core_follow (rounds + 1) _ machine core lines after left).1
  have quiet (after : Machine) (left : (engine.follow lines machine).Leaves after)
      (few : after.tasks.count ≤ machine.tasks.count) :=
    (follow_contained (rounds + 1) lines machine core.fits contained after left few).1
  show (engine.follow lines machine).Concluded id last machine.tasks.count ((engine.run.attempt >>= finishing id) _)
  generalize ran : Exec.iterate engine.lineStep (rounds + 1) .empty (machine.carrying id lines last) = outcome at carried
  cases followed : engine.follow lines machine with
  | outOfFuel =>
    rw [followed] at carried
    cases carried
    have run := parts.trans (Exec.bind_exhausted _ _ _ ran)
    rw [Exec.bind_exhausted _ _ _ (by rw [Exec.attempt, run])]
    exact .outOfFuel
  | failed failure broken =>
    rw [followed] at carried stays quiet
    cases carried with
    | failed _ _ runner outermost =>
      have run := parts.trans (Exec.bind_failed _ _ _ _ _ ran)
      rw [Exec.bind_done _ _ _ (broken.hosting id runner []) (.error failure) (by rw [Exec.attempt, run])]
      have left : (Outcome.failed failure broken : Outcome (Option Value × List Node)).Leaves broken := .inr ⟨failure, rfl⟩
      exact failed_concluded id broken held (stays broken left) _ (quiet broken left) last failure runner outermost
  | done result ended =>
    obtain ⟨value, left⟩ := result
    have config : ended.config = machine.config := congrArg Prod.fst
      ((Stage.mk [] (Arena.root :: held) machine).follows_setting _ _ ended
        (lawful_follow engine lines (RuleSet.lawful_engine (rounds + 1)) _ core.sound) (.inl ⟨_, followed⟩))
    have stopped := follow_left engine lines machine ended (value, left) followed
    rw [followed] at carried stays quiet
    cases carried with
    | done _ _ _ report only =>
      have run := parts.trans (Exec.bind_done _ _ _ _ _ ran)
      rw [Exec.bind_same _ (engine.afterLines rounds report).attempt _ _ (ended.carrying id left (value.or last))
        (by rw [Exec.attempt, Exec.attempt, run])]
      have here : (Outcome.done (value, left) ended).Leaves ended := .inl ⟨_, rfl⟩
      exact done_concluded (rounds + 1) id ended held (stays ended here) _ (quiet ended here) last value left stopped report only
        (Nat.succ_pos rounds) rounds (by rw [config]; omega)

end Engine

/-- Nothing is in progress, and nothing waits. The host may hold frames, and there may be promises that nobody settles. -/
structure Stage.Quiescent (stage : Stage) : Prop where
  outside : stage.calls = []
  ready : stage.machine.ready = []
  microtasks : stage.machine.microtasks = []
  events : stage.machine.events = []
  runners : stage.machine.runners = []

-- The machine in which the lines of a program are followed that was begun in this one.
def Machine.opening (machine : Machine) (frames : Arena) : Machine :=
  { machine with halted := false, frames := frames, clock := machine.clock + Machine.blockTime, runnerCount := 0 }

theorem Machine.core_renumbered {held : List FrameId} {machine : Machine} (core : machine.Core held) (count : Nat) :
    ({ machine with runnerCount := count } : Machine).Core held := by
  have sound := core.sound
  have plain := sound.plain
  refine ⟨⟨sound.ledger, sound.depth, sound.waiting, sound.distinct, sound.bodies, ⟨sound.numbered.1, fun entry listed => ?_⟩,
    ⟨plain.classes, plain.frames, plain.tasks, plain.microtasks, plain.jobs⟩, ⟨sound.served.1, sound.served.2⟩⟩,
    core.ready, core.runners⟩
  have none : machine.runners = [] := core.runners
  rw [show entry ∈ machine.runners ↔ entry ∈ [] by rw [none]] at listed
  cases listed

section Opening
variable {config : Config} {stage : Stage} (attained : Attained config stage) (quiescent : stage.Quiescent)
include attained quiescent

theorem opening_core (frames : Arena) (retained : stage.machine.frames.retain Arena.root = .ok frames) :
    (stage.machine.opening frames).Core (Arena.root :: stage.held) ∧ (stage.machine.opening frames).Contained := by
  have sound := reachable_sound config stage (attained_reachable config stage attained)
  have coherent := attained_coherent config stage attained
  obtain ⟨calls, held, machine⟩ := stage
  obtain rfl : calls = [] := quiescent.outside
  have cleared : (Stage.mk [] held { machine with halted := false, clock := machine.clock + Machine.blockTime }).Sound :=
    step_sound _ _ sound (.quiet _ machine.output false machine.nextIdentity _ machine.ready)
  have opened : (Stage.mk [] (Arena.root :: held)
      { machine with halted := false, clock := machine.clock + Machine.blockTime, frames := frames }).Sound :=
    Stage.retain_sound _ Arena.root _ cleared (Exec.retain_frame_retains Arena.root _ frames retained)
  have within := machine.keeps_weaken (machine.coherent_keeps coherent) fun _ known => known.within
  have fits := machine.keeps_fits _ within rfl quiescent.microtasks quiescent.events 0 (Nat.zero_le _)
  have kept := Machine.fits_frames fits frames (Arena.fits_retain fits.frames Arena.root retained)
  exact ⟨Machine.core_renumbered ⟨opened, quiescent.ready, quiescent.runners⟩ 0,
    Machine.fits_same kept _ rfl rfl rfl rfl rfl (Nat.le_refl _)⟩

theorem program_begins : ∃ frames, stage.machine.frames.retain Arena.root = .ok frames ∧ ∀ lines : List Node,
    (Exec.clearHalt >>= fun _ => Exec.loadProgram lines Arena.root : Exec RunnerId) stage.machine =
      .done ⟨stage.machine.runnerCount + 1⟩
        ((stage.machine.opening frames).carrying ⟨stage.machine.runnerCount + 1⟩ lines none) := by
  have reached := attained_reachable config stage attained
  have sound := reachable_sound config stage reached
  obtain ⟨frame, found⟩ := (Arena.live_found _ _).mp sound.root_live
  obtain ⟨frames, retained⟩ : ∃ frames, stage.machine.frames.retain Arena.root = .ok frames :=
    ⟨_, by simp only [Arena.retain, Arena.update, found]; rfl⟩
  -- The outermost frame belongs to no function, so no result ends the program.
  have lasting := Arena.lasting_retain _ frames Arena.root retained
  have rooted := stage.machine.frames.rooted_lasting frames sound.root_live (reachable_rooted config stage reached) lasting
  have live := (opening_core attained quiescent frames retained).1.sound.root_live
  refine ⟨frames, retained, fun lines => ?_⟩
  have created := Exec.create_runner_creates lines Arena.root none { stage.machine with halted := false } frames retained
    (frames.rooted_function_frame live rooted)
  have made : Exec.createRunner lines Arena.root { stage.machine with halted := false } = .done ⟨stage.machine.runnerCount + 1⟩
      ((stage.machine.opening frames).hosting ⟨stage.machine.runnerCount + 1⟩ ⟨Arena.root, none, lines, none, false⟩ []) := by
    rw [created]
    simp [Machine.hosting, Machine.opening, quiescent.runners, quiescent.ready]
  show Exec.loadProgram lines Arena.root { stage.machine with halted := false } = _
  unfold Exec.loadProgram
  rw [Exec.bind_done _ _ _ _ _ made, Exec.bind_done _ _ _ _ _ (Exec.advance_hosted _ _ lines none)]
  rfl

theorem program_concluded (fuel : Nat) : ∃ frames, stage.machine.frames.retain Arena.root = .ok frames ∧
    (stage.machine.opening frames).Core (Arena.root :: stage.held) ∧ (stage.machine.opening frames).Contained ∧
    ∀ lines : List Node, lines.length + stage.machine.config.idleLimit + 1 < fuel →
      ((RuleSet.standard.engine fuel).follow lines (stage.machine.opening frames)).Concluded ⟨stage.machine.runnerCount + 1⟩
        none stage.machine.tasks.count ((RuleSet.standard.engine fuel).evalProgram lines stage.machine) := by
  obtain ⟨frames, retained, begins⟩ := program_begins attained quiescent
  obtain ⟨begun, contained⟩ := opening_core attained quiescent frames retained
  refine ⟨frames, retained, begun, contained, fun lines enough => ?_⟩
  rw [Engine.eval_program_parts, Exec.bind_done _ _ _ _ _ (begins lines)]
  exact Engine.concluded fuel ⟨stage.machine.runnerCount + 1⟩ _ _ begun contained lines none enough

end Opening

end CoopScript
