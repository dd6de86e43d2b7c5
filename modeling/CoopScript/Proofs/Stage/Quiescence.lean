import CoopScript.Proofs.Stage.Settler
import CoopScript.Proofs.Stage.Reachable

set_option autoImplicit false
namespace CoopScript

namespace Arena

def Outermost (arena : Arena) : Prop := ∀ outer, arena.Encloses outer root → outer = root

theorem outermost_shrinks (before after : Arena) (owners : List FrameId) (kept : before.Kept owners)
    (live : before.isLive root = true) (shrinks : before.Shrinks after) (outermost : before.Outermost) :
    after.Outermost := fun outer encloses =>
  outermost outer (encloses_lasting after before owners outer root
    (lasting_symm before after (lasting_shrinks before after shrinks)) kept live encloses)

-- Every live frame is around one that is owned, so with nobody but the root owned there is no other.
theorem only_root (arena : Arena) (kept : arena.Kept [root]) (outermost : arena.Outermost) (id : FrameId)
    (live : arena.isLive id = true) : id = root := by
  obtain ⟨owner, owned, encloses⟩ := live_enclosed arena [root] id kept live
  obtain rfl := List.mem_singleton.mp owned
  exact outermost id encloses

theorem root_held_once (arena : Arena) (kept : arena.Kept [root]) (outermost : arena.Outermost) :
    ∃ frame, arena.frame? root = some frame ∧ frame.holds = 1 := by
  obtain ⟨frame, found⟩ := (live_found arena root).mp (kept.live root (by simp))
  have childless : arena.children root = 0 := by
    by_contra some_child
    obtain ⟨child, content, childFound, inside⟩ := child_of_positive arena root (Nat.pos_of_ne_zero some_child)
    have childLive : arena.isLive child = true := (live_found arena child).mpr ⟨content, childFound⟩
    obtain rfl := only_root arena kept outermost child childLive
    obtain ⟨depth, anchored⟩ := kept.anchored root childLive
    have deeper : arena.Anchored (depth + 1) root := .inside depth root root content childFound inside anchored
    exact absurd (anchored_depth_unique arena _ _ root anchored deeper) (by omega)
  have balance := kept.balance root frame found
  rw [List.count_singleton_self, childless] at balance
  exact ⟨frame, found, balance⟩

end Arena

namespace Exec

theorem released_shrinks (id : FrameId) (machine after : Machine)
    (released : releaseFrame id machine = .done () after) :
    ∃ frames, after = { machine with frames := frames } ∧ machine.frames.Shrinks frames := by
  obtain ⟨frames, same, rfl⟩ := release_frame_done id machine after released
  have shrinks := Arena.release_chain_shrinks machine.frames machine.frames.reach id
  rw [show machine.frames.releaseChain machine.frames.reach id = _ from same] at shrinks
  exact ⟨frames, rfl, shrinks⟩

theorem release_each_done (ids : List FrameId) (machine after : Machine)
    (released : each releaseFrame ids machine = .done () after) :
    ∃ frames, after = { machine with frames := frames } ∧ machine.frames.Shrinks frames := by
  induction ids generalizing machine with
  | nil =>
    cases released
    exact ⟨after.frames, rfl, Arena.shrinks_refl _⟩
  | cons id rest ih =>
    obtain ⟨middle, _, first, later⟩ := done_of_bind _ _ machine after () released
    obtain ⟨frames, rfl, shrinks⟩ := released_shrinks id machine middle first
    obtain ⟨left, rfl, more⟩ := ih _ later
    exact ⟨left, rfl, Arena.shrinks_trans machine.frames frames left shrinks more⟩

theorem finish_each_done (ids : List RunnerId) (machine after : Machine)
    (finished : each (fun id => do let _ ← finishRunner id) ids machine = .done () after)
    (distinct : (machine.runners.map Prod.fst).Nodup)
    (listed : ∀ entry ∈ machine.runners, entry.1 ∈ ids) :
    ∃ frames, after = { machine with runners := [], frames := frames } ∧ machine.frames.Shrinks frames := by
  induction ids generalizing machine with
  | nil =>
    cases finished
    have none : after.runners = [] := List.eq_nil_iff_forall_not_mem.mpr fun entry member => by
      cases listed entry member
    exact ⟨after.frames, by rw [← none], Arena.shrinks_refl _⟩
  | cons id rest ih =>
    obtain ⟨middle, _, first, later⟩ := done_of_bind _ _ machine after () finished
    obtain ⟨dropped, last, finish, ended⟩ := done_of_bind _ _ machine middle () first
    cases ended
    rcases finish_runner_done id last machine middle finish with ⟨unknown, rfl⟩ | ⟨runner, frames, known, released, rfl⟩
    · refine ih middle later distinct fun entry member => ?_
      refine (List.mem_cons.mp (listed entry member)).resolve_left fun same => ?_
      have found := Machine.runner_listed middle entry.1 entry.2 distinct member
      rw [same, unknown] at found
      cases found
    · have erased := Machine.swap_erase_perm id runner machine.runners (Machine.runner_found machine id runner known)
      have names := List.nodup_cons.mp ((erased.map Prod.fst).nodup_iff.mpr distinct)
      have others : ∀ entry ∈ Machine.swapErase id machine.runners, entry.1 ∈ rest := fun entry member => by
        refine (List.mem_cons.mp (listed entry (erased.subset (List.mem_cons_of_mem _ member)))).resolve_left ?_
        rintro rfl
        exact names.1 (List.mem_map.mpr ⟨entry, member, rfl⟩)
      obtain ⟨left, rfl, more⟩ := ih _ later names.2 others
      have shrinks := Arena.release_chain_shrinks machine.frames machine.frames.reach runner.frame
      rw [show machine.frames.releaseChain machine.frames.reach runner.frame = _ from released] at shrinks
      exact ⟨left, rfl, Arena.shrinks_trans machine.frames frames left shrinks more⟩

theorem reset_done (machine after : Machine) (distinct : (machine.runners.map Prod.fst).Nodup)
    (dropped : reset machine = .done () after) :
    ∃ frames, machine.frames.Shrinks frames ∧ after = { machine with
      ready := []
      microtasks := []
      asyncFrames := []
      runners := []
      frames := frames
      events := machine.events.filter fun entry => some entry.1 = machine.poolEvent
      depth := 0 } := by
  unfold reset at dropped
  rw [modify_then, read_then, modify_then] at dropped
  obtain ⟨released, _, first, rest⟩ := done_of_bind _ _ _ after () dropped
  obtain ⟨frames, rfl, shrinks⟩ := release_each_done _ _ released first
  rw [read_then] at rest
  obtain ⟨finished, _, second, last⟩ := done_of_bind _ _ _ after () rest
  obtain ⟨left, rfl, more⟩ := finish_each_done _ _ finished second distinct
    fun entry member => List.mem_map_of_mem member
  cases last
  exact ⟨left, Arena.shrinks_trans machine.frames frames left shrinks more, rfl⟩

end Exec

namespace Engine

theorem service_idle (engine : Engine) (stage : Stage) (sound : stage.Sound) (report result : TickReport)
    (after : Machine) (served : engine.serviceEvents report stage.machine = .done result after)
    (idle : result.isIdle = true) : report.isIdle = true := by
  rcases engine.service_events_cases stage sound report with ⟨_, _, done⟩ | ⟨_, status, _, _, _, done⟩
  · rw [served] at done
    cases done
    exact idle
  · rw [served] at done
    cases done
    exact (report.idle_noted status idle).1

-- What an idle tick that did not halt leaves is a machine with nothing left to do.
theorem tick_idle (engine : Engine) (lawful : engine.Lawful) (stage : Stage) (sound : stage.Sound)
    (report : TickReport) (after : Machine) (ticked : engine.tick stage.machine = .done report after)
    (idle : report.isIdle = true) (running : after.halted = false) :
    after.ready = [] ∧ after.microtasks = [] ∧ after.jobs = [] ∧ after.events = [] := by
  obtain ⟨first, lined, lines, rest⟩ := Exec.done_of_bind _ _ _ _ _ ticked
  obtain ⟨second, drained, drains, services⟩ := Exec.done_of_bind _ _ _ _ _ rest
  obtain ⟨running, service⟩ := unless_halted_running _ _ _ _ _ services running
  obtain ⟨running, drain⟩ := unless_halted_running _ _ _ _ _ drains running
  have firstSound := stage.follows_sound _ _ first sound (engine.lawful_run_lines lawful .empty stage sound)
    (.inl ⟨lined, lines⟩)
  have secondSound := (stage.put first).follows_sound _ _ second firstSound
    (engine.lawful_drain_microtasks lawful lined (stage.put first) firstSound) (.inl ⟨drained, drain⟩)
  -- Neither events nor microtasks are counted as lines, so there were no lines either.
  have drainedIdle := engine.service_idle _ secondSound drained report after service idle
  obtain ⟨sameLines, _⟩ := engine.drain_idle first second lined drained drain
  obtain ⟨_, untouched⟩ := engine.run_lines_idle stage.machine first .empty lined lines
  obtain ⟨rfl, rfl, why⟩ := untouched (sameLines.symm.trans (drained.idle_lines drainedIdle))
  have noLines : stage.machine.ready = [] := why.resolve_left (by simp [running])
  obtain ⟨_, quiet, jobless, eventless, sameReady⟩ :=
    engine.pass_idle stage.machine (stage.put second) secondSound drained report after drain service idle
  exact ⟨sameReady.trans noLines, quiet, jobless, eventless⟩

theorem run_ended (engine : Engine) (lawful : engine.Lawful) (stage : Stage) (sound : stage.Sound)
    (after : Machine) (run : engine.run stage.machine = .done () after) (running : after.halted = false) :
    after.ready = [] ∧ after.microtasks = [] ∧ after.jobs = [] ∧ after.events = [] := by
  obtain ⟨idle, middle, middleSound, last⟩ := Exec.iterate_last engine.runStep
    (fun _ machine => (stage.put machine).Sound) engine.fuel 0 () stage.machine after sound
    (fun idle machine next middle machineSound round => (stage.put machine).follows_sound _ _ middle
      machineSound (engine.lawful_run_step lawful idle _ machineSound) (.inl ⟨_, round⟩)) run
  obtain ⟨report, tick, idleTick⟩ := engine.run_step_ended idle middle after last running
  exact engine.tick_idle lawful (stage.put middle) middleSound report after tick idleTick running

end Engine

/-- Nothing is in progress and no line or microtask waits. The outermost frame alone lives, held by nobody but
the machine, and the only event there may be is the pool's. -/
structure Machine.AtRest (machine : Machine) : Prop where
  ready : machine.ready = []
  microtasks : machine.microtasks = []
  runners : machine.runners = []
  asyncFrames : machine.asyncFrames = []
  depth : machine.depth = 0
  events : ∀ entry ∈ machine.events, machine.poolEvent = some entry.1 ∧ entry.2 = some .pollPool
  live : ∀ id, machine.frames.isLive id = true ↔ id = Arena.root
  holds : ∃ frame, machine.frames.frame? Arena.root = some frame ∧ frame.holds = 1

-- What the proof carries from one evaluation to the next.
structure Machine.Clean (machine : Machine) : Prop where
  sound : (Stage.mk [] [] machine).Sound
  outermost : machine.frames.Outermost
  ready : machine.ready = []
  microtasks : machine.microtasks = []
  runners : machine.runners = []

namespace Machine

theorem clean_at_rest (machine : Machine) (clean : machine.Clean) : machine.AtRest := by
  have sound := clean.sound
  have waiting : machine.asyncFrames = [] := by
    have queued : machine.asyncFrames = machine.microtasks.filterMap Microtask.frame? := sound.waiting
    rw [queued, clean.microtasks]
    rfl
  have owned : (Stage.mk [] [] machine).owners = [Arena.root] := by
    simp [Stage.owners, registered, clean.runners, waiting]
  have kept : machine.frames.Kept [Arena.root] := owned ▸ sound.ledger
  refine
    { ready := clean.ready, microtasks := clean.microtasks, runners := clean.runners, asyncFrames := waiting,
      depth := sound.depth, events := fun entry member => ?_, live := fun id => ⟨?_, ?_⟩,
      holds := Arena.root_held_once _ kept clean.outermost }
  · have listed : machine.events = machine.poolEvent.toList.map fun id => (id, some .pollPool) := sound.served.events
    rw [listed] at member
    obtain ⟨id, known, rfl⟩ := List.mem_map.mp member
    exact ⟨Option.mem_toList.mp known, rfl⟩
  · exact Arena.only_root _ kept clean.outermost id
  · rintro rfl
    exact kept.live Arena.root (by simp)

theorem named_outer (names : List (String × Value)) (frames : Arena) (frame : Frame)
    (found : frames.frame? Arena.root = some frame) (outer : frame.parent = none) :
    ∃ later, (named names frames).frame? Arena.root = some later ∧ later.parent = none := by
  induction names generalizing frames frame with
  | nil => exact ⟨frame, found, outer⟩
  | cons entry rest ih =>
    unfold named
    rw [List.foldl_cons]
    simp only [Arena.setVariable, Arena.update, found]
    have set := Arena.frame_set frames Arena.root Arena.root frame
      { frame with bindings := frame.bindings.insert entry.1 entry.2 } found
    rw [if_pos rfl] at set
    exact ih _ _ set outer

theorem start_clean (config : Config) : (Machine.start config).Clean := by
  refine ⟨Stage.start_sound config, ?_, rfl, rfl, rfl⟩
  rintro outer encloses
  cases encloses with
  | self => rfl
  | around _ parent frame found inside =>
    have first : Arena.initial.frame? Arena.root = some (.fresh none false .empty) := rfl
    obtain ⟨later, laterFound, alone⟩ := named_outer (initial config).givenNames Arena.initial _ first rfl
    rw [show (Machine.start config).frames = _ from (initial config).prelude_frames] at found
    rw [show (named _ (initial config).frames).frame? Arena.root = _ from laterFound] at found
    cases found
    rw [alone] at inside
    cases inside

end Machine

-- The machines between evaluations that come one after the other, of which none was left by `exit`.
inductive Session (config : Config) : Machine → Prop where
  | start : Session config (Machine.start config)
  | done (machine after : Machine) (fuel : Nat) (source : String) (value : Value)
      (earlier : Session config machine)
      (done : (RuleSet.standard.engine fuel).evalSource source machine = .done value after)
      (running : after.halted = false) : Session config after
  | failed (machine after : Machine) (fuel : Nat) (source : String) (failure : Failure)
      (earlier : Session config machine)
      (failed : (RuleSet.standard.engine fuel).evalSource source machine = .failed failure after) :
      Session config after

namespace Machine
variable (machine after : Machine) (clean : machine.Clean)
include clean

-- With no runner registered, whatever happens outside of calls happens on top of nothing.
theorem clean_within (stage : Stage) (outside : stage.calls = []) (unheld : stage.held = []) :
    (Stage.mk [] [] machine).Within stage := by
  refine ⟨?_, unheld, fun entry member => ?_⟩
  · rw [outside]
  · have none : machine.registered = [] := by simp [registered, clean.runners]
    rw [show (Stage.mk [] [] machine).machine.registered = [] from none] at member
    cases member

theorem clean_outermost (stage : Stage)
    (steady : (Stage.mk [] [] machine).Steady machine.frames stage.machine.frames) :
    stage.machine.frames.Outermost := fun outer encloses =>
  clean.outermost outer ((steady.around Arena.root (by simp [Stage.firm]) outer).mpr encloses)

-- Whatever a run has left to do, once its runner is finished no runner is registered, and all else that the run had
-- in progress is over.
theorem finished_left (engine : Engine) (runner : RunnerId) (last : Option Value) (loaded finished : Machine)
    (leads : (Stage.mk [] [] machine).Leads ⟨[], [], machine⟩ ⟨[], [], loaded⟩)
    (registered : loaded.registered.Perm ((runner, Arena.root) :: machine.registered))
    (reaches : (Stage.mk [] [] loaded).Reaches engine.run finished)
    (finish : Exec.finishRunner runner finished = .done last after) :
    (Stage.mk [] [] machine).Leads ⟨[], [], machine⟩ ⟨[], [], after⟩ ∧ after.frames.Outermost ∧ after.runners = [] := by
  have none : machine.registered = [] := by simp [Machine.registered, clean.runners]
  have within := machine.clean_within clean
  have total : (Stage.mk [] [] machine).Leads ⟨[], [], machine⟩ ⟨[], [], after⟩ := by
    refine .tail (leads.trans (Stage.leads_within _ _ _ _ (within _ rfl rfl) reaches.leads)) ⟨?_, within _ rfl rfl⟩
    exact .closing _ _ (.closeBlock _ runner last after finish)
  have finishedSound : (Stage.mk [] [] finished).Sound :=
    Stage.reaches_sound _ _ finished (Stage.leads_sound _ _ _ clean.sound leads) reaches
  have alone : finished.registered.Perm [(runner, Arena.root)] := by
    rw [none] at registered
    exact reaches.registered.trans registered
  obtain ⟨_, again, finishAgain, left⟩ := Exec.finish_runner_registered runner Arena.root _ finishedSound
    (alone.symm.subset (List.mem_singleton_self _))
  obtain rfl : again = after := by
    rw [show Exec.finishRunner runner finished = _ from finishAgain] at finish
    cases finish
    rfl
  have unregistered : again.registered = [] := ((List.perm_cons _).mp (left.trans alone)).eq_nil
  refine ⟨total, ?_, List.map_eq_nil_iff.mp unregistered⟩
  exact machine.clean_outermost clean ⟨[], [], again⟩
    (Stage.leads_steady _ _ _ clean.sound (within _ rfl rfl) total).2

omit clean in
theorem finish_keeps_work (runner : RunnerId) (last : Option Value)
    (finish : Exec.finishRunner runner machine = .done last after) :
    after.ready = machine.ready ∧ after.microtasks = machine.microtasks ∧ after.jobs = machine.jobs ∧
      after.halted = machine.halted ∧ after.events = machine.events := by
  rcases Exec.finish_runner_done runner last machine after finish with ⟨_, rfl⟩ | ⟨_, _, _, _, rfl⟩ <;>
    exact ⟨rfl, rfl, rfl, rfl, rfl⟩

theorem finished_clean (engine : Engine) (runner : RunnerId) (last : Option Value) (loaded finished : Machine)
    (leads : (Stage.mk [] [] machine).Leads ⟨[], [], machine⟩ ⟨[], [], loaded⟩)
    (registered : loaded.registered.Perm ((runner, Arena.root) :: machine.registered))
    (reaches : (Stage.mk [] [] loaded).Reaches engine.run finished)
    (finish : Exec.finishRunner runner finished = .done last after)
    (ready : finished.ready = []) (quiet : finished.microtasks = []) (jobless : finished.jobs = []) :
    after.Clean ∧
      ∀ task, after.tasks.state? task = some .pending → machine.tasks.state? task = some .pending := by
  obtain ⟨total, outermost, unregistered⟩ :=
    machine.finished_left after clean engine runner last loaded finished leads registered reaches finish
  obtain ⟨sameReady, sameMicrotasks, sameJobs, _⟩ := finished.finish_keeps_work after runner last finish
  refine ⟨⟨Stage.leads_sound _ _ _ clean.sound total, outermost, sameReady.trans ready, sameMicrotasks.trans quiet,
    unregistered⟩, fun task pending => ?_⟩
  refine (Stage.leads_stuck _ _ _ task total ⟨pending, fun member => ?_⟩).pending
  simp [Stage.settlers, sameMicrotasks, sameJobs, quiet, jobless] at member

theorem dropped_clean (engine : Engine) (failure : Failure) (loaded broken : Machine)
    (leads : (Stage.mk [] [] machine).Leads ⟨[], [], machine⟩ ⟨[], [], loaded⟩)
    (breaks : (Stage.mk [] [] loaded).Breaks engine.run failure broken)
    (dropped : Exec.reset broken = .done () after) : after.Clean := by
  have within := machine.clean_within clean
  have loadedSound := Stage.leads_sound _ _ _ clean.sound leads
  have brokenSound : (Stage.mk [] [] broken).Sound := Stage.breaks_sound _ _ failure broken loadedSound breaks
  obtain ⟨again, resets, afterSound⟩ := Stage.reset_sound _ brokenSound rfl
  obtain rfl : again = after := by
    rw [show Exec.reset broken = _ from resets] at dropped
    cases dropped
    rfl
  obtain ⟨middle, further, _, leaves⟩ := breaks.raised
  have onward := leads.trans (Stage.leads_within _ _ _ _ (within _ rfl rfl) further)
  have middleSound := Stage.leads_sound _ _ _ clean.sound onward
  obtain ⟨middleWithin, steady⟩ := Stage.leads_steady _ _ _ clean.sound (within _ rfl rfl) onward
  have outward := Stage.leaves_steady _ _ _ middleSound middleWithin
    (Stage.leaves_within _ _ _ _ (within _ rfl rfl) leaves)
  have outermost := machine.clean_outermost clean _ (Stage.steady_trans _ _ _ _ steady outward.2)
  obtain ⟨frames, shrinks, rfl⟩ := Exec.reset_done broken again brokenSound.numbered.distinct dropped
  refine ⟨afterSound, ?_, rfl, rfl, rfl⟩
  exact Arena.outermost_shrinks broken.frames frames _ brokenSound.ledger
    (brokenSound.ledger.live Arena.root (by simp [Stage.owners])) shrinks outermost

end Machine

namespace Engine
variable (engine : Engine) (lawful : engine.Lawful) (machine after : Machine) (clean : machine.Clean)
include lawful clean

theorem program_done_clean (lines : List Node) (value : Value)
    (done : engine.evalProgram lines machine = .done value after) (running : after.halted = false) :
    after.Clean ∧ after.events = [] ∧ after.jobs = [] ∧
      ∀ task, after.tasks.state? task = some .pending → machine.tasks.state? task = some .pending := by
  rcases (Stage.mk [] [] machine).program_cases lines engine lawful clean.sound rfl with
    exhausted | ⟨runner, loaded, leads, registered, ended⟩
  · rw [show engine.evalProgram lines machine = _ from exhausted] at done
    cases done
  rcases ended with ⟨_, last, finished, dropped, run, reaches, finish, ran⟩ | ⟨_, _, _, _, _, _, ran⟩
  all_goals
    rw [show engine.evalProgram lines machine = _ from ran] at done
    cases done
  obtain ⟨_, _, sameJobs, sameHalt, sameEvents⟩ := finished.finish_keeps_work after runner last finish
  obtain ⟨ready, quiet, jobless, eventless⟩ := engine.run_ended lawful _
    (Stage.leads_sound _ _ _ clean.sound leads) finished run (sameHalt.symm.trans running)
  obtain ⟨afterClean, pending⟩ := machine.finished_clean after clean engine runner last loaded finished leads registered
    reaches finish ready quiet jobless
  exact ⟨afterClean, sameEvents.trans eventless, sameJobs.trans jobless, pending⟩

theorem program_failed_clean (lines : List Node) (failure : Failure)
    (failed : engine.evalProgram lines machine = .failed failure after) : after.Clean := by
  rcases (Stage.mk [] [] machine).program_cases lines engine lawful clean.sound rfl with
    exhausted | ⟨runner, loaded, leads, _, ended⟩
  · rw [show engine.evalProgram lines machine = _ from exhausted] at failed
    cases failed
  rcases ended with ⟨_, _, _, _, _, _, _, ran⟩ | ⟨_, broken, dropped, _, breaks, drop, ran⟩
  all_goals
    rw [show engine.evalProgram lines machine = _ from ran] at failed
    cases failed
  exact machine.dropped_clean after clean engine failure loaded broken leads breaks drop

end Engine

theorem RuleSet.load_cases (rules : RuleSet) (source : String) (file : Option String) (machine : Machine) :
    (∃ lines, rules.load source file machine = .done lines machine) ∨
      (∃ failure, rules.load source file machine = .failed failure machine) ∨
      rules.load source file machine = .outOfFuel := by
  unfold load
  rcases rules.parse source file with _ | _ | lines
  · exact .inr (.inr rfl)
  · exact .inr (.inl ⟨_, rfl⟩)
  · exact .inl ⟨lines, rfl⟩

theorem RuleSet.parse_cases (rules : RuleSet) (fuel : Nat) (source : String) (machine : Machine) :
    (∃ lines, (rules.engine fuel).parse source machine = .done lines machine) ∨
      (∃ failure, (rules.engine fuel).parse source machine = .failed failure machine) ∨
      (rules.engine fuel).parse source machine = .outOfFuel := by
  cases fuel with
  | zero => exact .inr (.inr rfl)
  | succ fuel => exact rules.load_cases source none machine

namespace Engine
variable (fuel : Nat) (source : String) (machine after : Machine) (clean : machine.Clean)
include clean

theorem source_done_clean (value : Value)
    (done : (RuleSet.standard.engine fuel).evalSource source machine = .done value after)
    (running : after.halted = false) :
    after.Clean ∧ after.events = [] ∧ after.jobs = [] ∧
      ∀ task, after.tasks.state? task = some .pending → machine.tasks.state? task = some .pending := by
  obtain ⟨read, lines, parsed, ran⟩ := Exec.done_of_bind _ _ _ _ _ done
  rcases RuleSet.standard.parse_cases fuel source machine with ⟨_, reads⟩ | ⟨_, fails⟩ | exhausted
  · rw [reads] at parsed
    cases parsed
    exact program_done_clean _ (RuleSet.lawful_engine fuel) machine after clean lines value ran running
  · rw [fails] at parsed
    cases parsed
  · rw [exhausted] at parsed
    cases parsed

theorem source_failed_clean (failure : Failure)
    (failed : (RuleSet.standard.engine fuel).evalSource source machine = .failed failure after) :
    after.Clean := by
  unfold evalSource at failed
  rcases RuleSet.standard.parse_cases fuel source machine with ⟨lines, reads⟩ | ⟨_, fails⟩ | exhausted
  · rw [Exec.bind_done _ _ _ _ _ reads] at failed
    exact program_failed_clean _ (RuleSet.lawful_engine fuel) machine after clean lines failure failed
  · rw [Exec.bind_failed _ _ _ _ _ fails] at failed
    cases failed
    exact clean
  · rw [Exec.bind_exhausted _ _ _ exhausted] at failed
    cases failed

end Engine

theorem session_clean (config : Config) (machine : Machine) (session : Session config machine) :
    machine.Clean := by
  induction session with
  | start => exact Machine.start_clean config
  | done machine after fuel source value _ done running clean =>
    exact (Engine.source_done_clean fuel source machine after clean value done running).1
  | failed machine after fuel source failure _ failed clean =>
    exact Engine.source_failed_clean fuel source machine after clean failure failed

/-- Every evaluation comes to rest, unless `exit` stops it. One that ends well has waited for all that it began;
one that fails drops it, and can leave nothing behind but jobs and the event that asks for them. -/
theorem evaluations_come_to_rest (config : Config) (machine : Machine) (session : Session config machine)
    (fuel : Nat) (source : String) :
    (∀ value after, (RuleSet.standard.engine fuel).evalSource source machine = .done value after →
      after.halted = false → after.AtRest ∧ after.events = [] ∧ after.jobs = [] ∧
        ∀ task, after.tasks.state? task = some .pending → machine.tasks.state? task = some .pending) ∧
    ∀ failure after, (RuleSet.standard.engine fuel).evalSource source machine = .failed failure after →
      after.AtRest := by
  have clean := session_clean config machine session
  refine ⟨fun value after done running => ?_, fun failure after failed => ?_⟩
  · obtain ⟨afterClean, rest⟩ := Engine.source_done_clean fuel source machine after clean value done running
    exact ⟨after.clean_at_rest afterClean, rest⟩
  · exact after.clean_at_rest (Engine.source_failed_clean fuel source machine after clean failure failed)

-- A body that sleeps is waited for; a job that a failing line has begun is left behind.
theorem naps_come_to_rest : ∃ after left : Machine, after.AtRest ∧ after.events = [] ∧ after.jobs = [] ∧
    after.tasks.states.size = 2 ∧ left.AtRest ∧ left.jobs.length = 1 := by
  let engine := RuleSet.standard.engine 30
  obtain ⟨value, after, napped, facts⟩ := Outcome.ends_with_done
    (engine.evalSource "async fn nap() \x7b await sleep(1) \x7d p = nap()" (Machine.start .standard))
    (fun after => !after.halted && after.tasks.states.size == 2 &&
      (engine.evalSource "sleep(5) missing" after).failsWith fun _ left => left.jobs.length == 1)
    (by decide +kernel)
  simp only [Bool.and_eq_true, Bool.not_eq_true', beq_iff_eq] at facts
  obtain ⟨⟨running, tasks⟩, failing⟩ := facts
  obtain ⟨failure, left, failed, one⟩ := Outcome.fails_with_failed _ _ failing
  have rested := (evaluations_come_to_rest .standard _ .start 30 _).1 value after napped running
  have session : Session .standard after := .done _ after 30 _ value .start napped running
  have leftRested := (evaluations_come_to_rest .standard after session 30 _).2 failure left failed
  exact ⟨after, left, rested.1, rested.2.1, rested.2.2.1, tasks, leftRested, by simpa using one⟩

end CoopScript
