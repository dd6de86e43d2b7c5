import CoopScript.Interpreter
import CoopScript.Proofs.Round.Report
import CoopScript.Proofs.Round.Rota

set_option autoImplicit false
namespace CoopScript

/-- Programs that are loaded while no lines are ready, in frames whose functions have no result yet, take turns in the next
tick, if their lines run in peace: all lines of the programs are run, each once; the queue is empty then, and each runner is
finished with its own last value. -/
theorem programs_take_turns (engine : Engine) (programs : List (List Node × FrameId)) (ids : List RunnerId)
    (machine start : Machine) (numbered : machine.Numbered) (empty : machine.ready = []) (up : machine.halted = false)
    (unreturned : ∀ program ∈ programs, machine.frames.Unreturned program.2)
    (loaded : Exec.collect (fun program : List Node × FrameId => Exec.loadProgram program.1 program.2) programs machine =
      .done ids start)
    (peaceful : engine.Peaceful start (Rounds.order ((ids.zip programs).map linesOf)) ids)
    (enough : (programs.map fun program => program.1.length).sum < engine.fuel) :
    ids.length = programs.length ∧ ids.Nodup ∧ ∃ ran after,
      engine.runLines .empty start = .done ⟨(programs.map fun program => program.1.length).sum, 0, 0, false⟩ after ∧
      engine.Dispatched start ran after ∧ ran.map Prod.fst = Rounds.order ((ids.zip programs).map linesOf) ∧
      after.ready = [] ∧
      (∀ id ∈ ids, ∃ runner, after.runner? id = some runner ∧ runner.finished = true ∧ runner.last = Ran.lastValue ran id) ∧
      ∀ report last, engine.tick start = .done report last →
        report.lines = (programs.map fun program => program.1.length).sum := by
  have idle : machine.Rota [] [] [] :=
    { up, ready := empty, distinct := List.nodup_nil, known := List.forall_mem_nil _, unreturned := List.forall_mem_nil _
      ended := List.forall_mem_nil _ }
  obtain ⟨length, tracks, rota, listed⟩ := Exec.load_rota programs ids machine start [] idle numbered unreturned loaded
  rw [List.nil_append] at rota
  have named : tracks.map Track.runner = ids := by
    have first := congrArg (List.map Prod.fst) listed
    rwa [List.map_map, List.map_fst_zip (Nat.le_of_eq length)] at first
  have queues : tracks.map Track.queue = (ids.zip programs).map linesOf := by
    rw [← listed, List.map_map]
    rfl
  have total : (Rounds.order ((ids.zip programs).map linesOf)).length =
      (programs.map fun program => program.1.length).sum := by
    have second : (ids.zip programs).map Prod.snd = programs := List.map_snd_zip (Nat.le_of_eq length.symm)
    rw [Rounds.order_length, List.map_map]
    conv_rhs => rw [← second, List.map_map]
    exact congrArg List.sum (List.map_congr_left fun entry _ => List.length_map _)
  have own : ∀ track ∈ tracks ++ [], track.runner ∈ ids := fun track member =>
    named ▸ List.mem_map_of_mem (List.append_nil tracks ▸ member)
  obtain ⟨ran, after, done, dispatched, all, _, drained, finished⟩ := engine.rota_runs start _ ids peaceful _ tracks []
    start [] .empty engine.fuel queues .begun rota own (fun line member => member) (total ▸ enough)
  rw [total] at done
  have whole : engine.runLines .empty start =
      .done ⟨(programs.map fun program => program.1.length).sum, 0, 0, false⟩ after := by
    rw [Engine.run_lines_rounds, done]
    simp [TickReport.empty]
  refine ⟨length, ?_, ran, after, whole, dispatched, all, drained, fun id member => ?_, fun report last ticked =>
    engine.tick_reports_lines _ report start after last whole ticked⟩
  · rw [← named, ← List.append_nil tracks]
    exact rota.distinct
  · obtain ⟨track, listed, rfl⟩ := List.mem_map.mp (named.symm ▸ member)
    exact ⟨_, finished track (List.mem_append_left [] listed), rfl, rfl⟩

-- The programs have three lines, none and two, all of them literals.
theorem programs_take_turns_three :
    let programs : List (List Node × FrameId) :=
      [([.text "a1", .text "a2", .text "a3"], Arena.root), ([], Arena.root), ([.text "b1", .void], Arena.root)]
    ∃ ids start, Exec.collect (fun program : List Node × FrameId => Exec.loadProgram program.1 program.2) programs
        (Machine.start .standard) = .done ids start ∧
      ∃ ran after, (RuleSet.standard.engine 9).runLines .empty start = .done ⟨5, 0, 0, false⟩ after ∧
        ran.map Prod.fst = Rounds.order ((ids.zip programs).map linesOf) ∧ after.ready = [] ∧
        ∀ id ∈ ids, ∃ runner, after.runner? id = some runner ∧ runner.finished = true ∧
          runner.last = Ran.lastValue ran id := by
  intro programs
  obtain ⟨ids, start, loaded, _⟩ := Outcome.ends_with_done
    (Exec.collect (fun program : List Node × FrameId => Exec.loadProgram program.1 program.2) programs
      (Machine.start .standard)) (fun _ => true) (by decide +kernel)
  have outside : (Machine.start .standard).frames.functionFrame Arena.root = .ok none := rfl
  have rooted : ∀ program ∈ programs, program.2 = Arena.root := by simp [programs]
  have literal : ∀ program ∈ programs, ∀ node ∈ program.1, node = .void ∨ ∃ text, node = .text text := by simp [programs]
  have literal_runs : ∀ (node : Node) (frame : FrameId) (machine : Machine), (node = .void ∨ ∃ text, node = .text text) →
      ∃ value, (RuleSet.standard.engine 9).executeLine node frame machine = .done value machine := by
    rintro node frame machine (rfl | ⟨text, rfl⟩) <;> exact ⟨_, rfl⟩
  obtain ⟨_, _, ran, after, done, _, all, empty, finished, _⟩ := programs_take_turns (RuleSet.standard.engine 9) programs ids
    (Machine.start .standard) start ⟨List.nodup_nil, List.forall_mem_nil _⟩ rfl rfl
    (fun program member function asked => by
      rw [rooted program member, outside] at asked
      cases asked)
    loaded
    (fun ran machine line rest _ _ member => by
      obtain ⟨queue, queued, inside⟩ := Rounds.mem_order _ line member
      obtain ⟨entry, listed, rfl⟩ := List.mem_map.mp queued
      obtain ⟨node, nodeMember, rfl⟩ := List.mem_map.mp inside
      obtain ⟨value, ran⟩ := literal_runs node entry.2.2 { machine with ready := rest }
        (literal entry.2 (List.of_mem_zip listed).2 node nodeMember)
      exact ⟨value, _, ran, id, rfl, fun _ _ => rfl, fun _ _ => id⟩)
    (by decide)
  exact ⟨ids, start, loaded, ran, after, done, all, empty, finished⟩

theorem Engine.dispatched_once (engine : Engine) (start middle recorded after : Machine) (line : Line)
    (value : Option Value) (ready : start.ready = [line])
    (done : engine.executeLine line.node line.frame { start with ready := [] } = .done value middle)
    (noted : Exec.record line.runner value middle = .done () recorded)
    (moved : Exec.advance line.runner recorded = .done () after) (last : after.ready = []) (ran : Ran) (current : Machine)
    (reached : engine.Dispatched start ran current) : current = start ∨ current.ready = [] := by
  induction reached with
  | begun => exact .inl rfl
  | next _ machine ranMiddle ranRecorded ranAfter other rest _ _ _ ranReady ranDone ranNoted ranMoved ih =>
    rcases ih with rfl | none
    · cases ready.symm.trans ranReady
      cases done.symm.trans ranDone
      cases noted.symm.trans ranNoted
      cases moved.symm.trans ranMoved
      exact .inr last
    · cases none.symm.trans ranReady

-- A line that gives the function of its frame a result is the last one of its program, though all that it changes is
-- the frame.
theorem turns_cut_short :
    let engine := RuleSet.standard.engine 9
    let programs : List (List Node × FrameId) := [([.giveBack "return" default none, .text "left out"], ⟨1, 0⟩)]
    ∃ machine ids start, Exec.pushFrame Arena.root true .empty (Machine.start .standard) = .done ⟨1, 0⟩ machine ∧
      machine.Numbered ∧ machine.ready = [] ∧ machine.halted = false ∧
      (∀ program ∈ programs, machine.frames.Unreturned program.2) ∧
      Exec.collect (fun program : List Node × FrameId => Exec.loadProgram program.1 program.2) programs machine =
        .done ids start ∧
      (∀ ran current line rest, engine.Dispatched start ran current → current.ready = line :: rest →
        ∃ frames, engine.executeLine line.node line.frame { current with ready := rest } =
          .done none { current with ready := rest, frames := frames }) ∧
      (programs.map fun program => program.1.length).sum = 2 ∧
      ∃ after, engine.runLines .empty start = .done ⟨1, 0, 0, false⟩ after ∧ after.ready = [] := by
  intro engine programs
  refine ⟨_, _, _, rfl, ⟨List.nodup_nil, List.forall_mem_nil _⟩, rfl, rfl, ?_, rfl, ?_, rfl, _, rfl, rfl⟩
  · refine List.forall_mem_singleton.mpr fun function asked => ?_
    cases asked
    rfl
  · intro ran current line rest reached ready
    rcases engine.dispatched_once _ _ _ _ ⟨.giveBack "return" default none, ⟨1⟩, ⟨1, 0⟩⟩ none rfl rfl rfl rfl rfl ran
      current reached with rfl | none
    · cases ready
      exact ⟨_, rfl⟩
    · cases none.symm.trans ready

end CoopScript
