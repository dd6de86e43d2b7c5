import CoopScript.Proofs.Stage.Quiescence

set_option autoImplicit false
namespace CoopScript

/-- Nothing is in progress; lines may be queued, and bodies of asynchronous calls may wait. Only their frames, and those
around them, live beside the outermost one. -/
structure Machine.Stopped (machine : Machine) : Prop where
  runners : machine.runners = []
  depth : machine.depth = 0
  bodies : machine.asyncFrames = machine.microtasks.filterMap Microtask.frame?
  live : ∀ id, machine.frames.isLive id = true →
    id = Arena.root ∨ ∃ body ∈ machine.asyncFrames, machine.frames.Encloses id body

namespace Machine
variable (machine : Machine) (sound : (Stage.mk [] [] machine).Sound) (outermost : machine.frames.Outermost)
  (runners : machine.runners = [])
include sound outermost runners

theorem left_stopped : machine.Stopped := by
  refine ⟨runners, sound.depth, sound.waiting, fun id live => ?_⟩
  have owned : (Stage.mk [] [] machine).owners = Arena.root :: machine.asyncFrames := by
    simp [Stage.owners, registered, runners]
  obtain ⟨owner, member, encloses⟩ := Arena.live_enclosed machine.frames _ id sound.ledger live
  rw [owned] at member
  rcases List.mem_cons.mp member with rfl | body
  · exact .inl (outermost id encloses)
  · exact .inr ⟨owner, body, encloses⟩

omit outermost runners in
theorem load_behind (lines : List Node) : ∃ runner loaded,
    Exec.loadProgram lines Arena.root { machine with halted := false } = .done runner loaded ∧
      machine.ready <+: loaded.ready ∧ loaded.microtasks = machine.microtasks ∧ loaded.halted = false := by
  have clear : Step ⟨[], [], machine⟩ ⟨[], [], { machine with halted := false }⟩ :=
    .quiet _ machine.output false machine.nextIdentity machine.clock machine.ready
  have clearedSound := step_sound _ _ sound clear
  obtain ⟨runner, loaded, load⟩ := Stage.load_live ⟨[], [], { machine with halted := false }⟩ lines Arena.root
    clearedSound (clearedSound.ledger.live Arena.root (by simp [Stage.owners]))
  refine ⟨runner, loaded, load, ?_⟩
  obtain ⟨opened, id, created, rest⟩ := Exec.done_of_bind _ _ _ loaded runner load
  obtain ⟨advanced, _, moved, last⟩ := Exec.done_of_bind _ _ _ loaded runner rest
  cases last
  obtain ⟨frames, functionFrame, _, _, _, rfl⟩ := Exec.create_runner_done lines Arena.root runner _ opened created
  obtain ⟨behind, sameMicrotasks, running⟩ := Exec.advance_queues runner _ _ moved
  exact ⟨behind, sameMicrotasks, running⟩

end Machine

theorem Engine.line_alone (engine : Engine) (lawful : engine.Lawful) (stage : Stage) (sound : stage.Sound)
    (report result : TickReport) (line : Line) (rest : List Line) (after : Machine)
    (next : stage.machine.ready = line :: rest) (gone : stage.machine.runner? line.runner = none)
    (ran : engine.lineStep report stage.machine = .done (.inl result) after) :
    ∃ value, engine.executeLine line.node line.frame { stage.machine with ready := rest } = .done value after := by
  unfold lineStep at ran
  rw [Exec.read_then, next] at ran
  simp only [Exec.halted_then] at ran
  cases halted : stage.machine.halted with
  | true =>
    rw [halted, if_pos rfl] at ran
    cases ran
  | false =>
    rw [halted, if_neg Bool.false_ne_true, Exec.modify_then] at ran
    obtain ⟨executed, value, execution, later⟩ := Exec.done_of_bind _ _ _ _ _ ran
    -- The registered runners are the same ones after the line, so its own is still not among them.
    have dequeued : (stage.put { stage.machine with ready := rest }).Sound := step_sound _ _ sound
      (.quiet stage stage.machine.output stage.machine.halted stage.machine.nextIdentity stage.machine.clock rest)
    have registered := (stage.put { stage.machine with ready := rest }).follows_registered _ _ executed
      (engine.lawful_execute_line lawful line.node line.frame _ dequeued) (.inl ⟨value, execution⟩)
    have stillGone : executed.runner? line.runner = none := by
      by_contra back
      obtain ⟨runner, known⟩ := Option.ne_none_iff_exists'.mp back
      have listed := List.mem_of_find?_eq_some (executed.runner_found line.runner runner known)
      obtain ⟨entry, member, same⟩ := List.mem_map.mp (registered.subset (List.mem_map.mpr ⟨_, listed, rfl⟩))
      have found := stage.machine.runner_listed entry.1 entry.2 sound.numbered.distinct member
      rw [show entry.1 = line.runner from congrArg Prod.fst same, gone] at found
      cases found
    obtain ⟨recorded, _, record, later⟩ := Exec.done_of_bind _ _ _ _ _ later
    obtain ⟨advanced, _, advance, last⟩ := Exec.done_of_bind _ _ _ _ _ later
    cases last
    have recordedSame : recorded = executed := by
      cases value with
      | none =>
        cases record
        rfl
      | some value =>
        cases record
        exact executed.update_unknown line.runner _ stillGone
    subst recordedSame
    unfold Exec.advance at advance
    rw [Exec.read_then, Exec.read_then, stillGone] at advance
    cases advance
    exact ⟨value, execution⟩

/-- When a program has ended without a failure, be it by `exit`, no block of it goes on, and if its queues are empty nothing
is left of it. The next program's run begins with what is queued: each such line runs alone, and the bodies wait where they
did. -/
theorem exit_leaves_queues (config : Config) (machine after : Machine) (session : Session config machine) (fuel : Nat)
    (source : String) (value : Value)
    (done : (RuleSet.standard.engine fuel).evalSource source machine = .done value after) :
    after.Stopped ∧ (after.ready = [] → after.microtasks = [] → after.AtRest) ∧
      ∀ (later : Nat) (lines : List Node), ∃ runner loaded,
        Exec.loadProgram lines Arena.root { after with halted := false } = .done runner loaded ∧
        after.ready <+: loaded.ready ∧ loaded.microtasks = after.microtasks ∧ loaded.halted = false ∧
        ∀ (line : Line) (rest : List Line) (report result : TickReport) (last : Machine),
          loaded.ready = line :: rest → line.runner ≠ runner →
          (RuleSet.standard.engine later).lineStep report loaded = .done (.inl result) last →
          ∃ value, (RuleSet.standard.engine later).executeLine line.node line.frame { loaded with ready := rest } =
            .done value last := by
  have clean := session_clean config machine session
  have lawful := RuleSet.lawful_engine fuel
  obtain ⟨read, lines, parsed, ran⟩ := Exec.done_of_bind _ _ _ _ _ done
  have unread : read = machine := by
    rcases RuleSet.standard.parse_cases fuel source machine with ⟨_, reads⟩ | ⟨_, fails⟩ | exhausted
    · rw [reads] at parsed
      cases parsed
      rfl
    · rw [fails] at parsed
      cases parsed
    · rw [exhausted] at parsed
      cases parsed
  subst unread
  obtain ⟨sound, outermost, runners⟩ : (Stage.mk [] [] after).Sound ∧ after.frames.Outermost ∧ after.runners = [] := by
    rcases (Stage.mk [] [] read).program_cases lines _ lawful clean.sound rfl with
      exhausted | ⟨runner, loaded, leads, registered, ended⟩
    · rw [show (RuleSet.standard.engine fuel).evalProgram lines read = _ from exhausted] at ran
      cases ran
    rcases ended with ⟨_, last, finished, dropped, run, reaches, finish, same⟩ | ⟨_, _, _, _, _, _, same⟩
    all_goals
      rw [show (RuleSet.standard.engine fuel).evalProgram lines read = _ from same] at ran
      cases ran
    obtain ⟨total, rest⟩ := read.finished_left after clean _ runner last loaded finished leads registered reaches finish
    exact ⟨Stage.leads_sound _ _ _ clean.sound total, rest⟩
  refine ⟨after.left_stopped sound outermost runners, fun ready quiet => ?_, fun later lines => ?_⟩
  · exact after.clean_at_rest ⟨sound, outermost, ready, quiet, runners⟩
  obtain ⟨runner, loaded, load, behind, sameMicrotasks, running⟩ := after.load_behind sound lines
  refine ⟨runner, loaded, load, behind, sameMicrotasks, running, ?_⟩
  intro line rest report result last next other round
  have clear : Step ⟨[], [], after⟩ ⟨[], [], { after with halted := false }⟩ :=
    .quiet _ after.output false after.nextIdentity after.clock after.ready
  obtain ⟨leads, _, registered⟩ := Stage.load_leads _ lines Arena.root runner loaded (step_sound _ _ sound clear) load
  have loadedSound := Stage.leads_sound _ _ _ (step_sound _ _ sound clear) leads
  -- The new program's runner is the only one there is.
  have gone : loaded.runner? line.runner = none := by
    by_contra back
    obtain ⟨content, known⟩ := Option.ne_none_iff_exists'.mp back
    have listed := List.mem_of_find?_eq_some (loaded.runner_found line.runner content known)
    have entry := registered.subset (List.mem_map.mpr ⟨_, listed, rfl⟩)
    have alone : Machine.registered { after with halted := false } = [] := by simp [Machine.registered, runners]
    rw [show (Stage.mk [] [] { after with halted := false }).machine.registered = [] from alone] at entry
    exact other (congrArg Prod.fst (List.mem_singleton.mp entry))
  exact Engine.line_alone _ (RuleSet.lawful_engine later) ⟨[], [], loaded⟩ loadedSound report result line rest last
    next gone round

-- `exit` leaves the line behind it in the queue.
theorem exit_leaves_line : ∃ after : Machine, after.halted = true ∧ after.Stopped ∧ after.ready.length = 1 ∧
    after.microtasks = [] := by
  obtain ⟨value, after, ended, facts⟩ := Outcome.ends_with_done
    ((RuleSet.standard.engine 30).evalSource "print(1); exit(); print(2)" (Machine.start .standard))
    (fun after => after.halted && after.ready.length == 1 && after.microtasks.isEmpty) (by decide +kernel)
  simp only [Bool.and_eq_true, beq_iff_eq, List.isEmpty_iff] at facts
  have left := exit_leaves_queues .standard _ after .start 30 _ value ended
  exact ⟨after, facts.1.1, left.1, facts.1.2, facts.2⟩

-- That line is run by the next program.
theorem exited_line_runs_later : ∃ (first last : Value) (after later : Machine),
    (RuleSet.standard.engine 30).evalSource "print(1); exit(); print(2)" (Machine.start .standard) = .done first after ∧
      after.halted = true ∧ after.output = #["1"] ∧
      (RuleSet.standard.engine 30).evalSource "print(3)" after = .done last later ∧ later.output = #["1", "2", "3"] := by
  let engine := RuleSet.standard.engine 30
  obtain ⟨first, after, ended, facts⟩ := Outcome.ends_with_done
    (engine.evalSource "print(1); exit(); print(2)" (Machine.start .standard))
    (fun after => after.halted && after.output == #["1"] &&
      (engine.evalSource "print(3)" after).endsWith fun later => later.output == #["1", "2", "3"])
    (by decide +kernel)
  simp only [Bool.and_eq_true, beq_iff_eq] at facts
  obtain ⟨last, later, again, output⟩ := Outcome.ends_with_done _ _ facts.2
  exact ⟨first, last, after, later, ended, facts.1.1, facts.1.2, again, beq_iff_eq.mp output⟩

end CoopScript
