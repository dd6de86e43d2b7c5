import CoopScript.Proofs.Exit.Language
import CoopScript.Proofs.Stage.Quiescence

set_option autoImplicit false
namespace CoopScript

-- Whether a text is a program of some leeway.
def Leeway.admits (leeway : Leeway) (source : String) : Bool :=
  match RuleSet.standard.parse source none with
  | some (.ok lines) => Node.allPrudent leeway false lines
  | _ => false

theorem Leeway.admitted_lines (leeway : Leeway) (source : String) (admitted : leeway.admits source = true) :
    ∃ lines, RuleSet.standard.parse source none = some (.ok lines) ∧ Node.allPrudent leeway false lines = true := by
  unfold admits at admitted
  split at admitted
  next lines read => exact ⟨lines, read, admitted⟩
  next => cases admitted

theorem Leeway.strict_allows_nothing (failure : Failure) : ¬ (Leeway.mk false false false).Allows failure := by
  rintro ⟨_, _, ⟨awaits, _⟩ | ⟨nests | risks, _⟩ | ⟨risks, _⟩⟩
  · cases awaits
  · cases nests
  all_goals cases risks

namespace Machine
variable (leeway : Leeway)

omit leeway in
theorem named_holds (holds : FrameId → Frame → Prop) (names : List (String × Value)) (frames : Arena)
    (carried : ∀ entry ∈ names, ∀ arena after : Arena, arena.Holds holds →
      arena.setVariable Arena.root entry.1 entry.2 = .ok after → after.Holds holds)
    (held : frames.Holds holds) : (named names frames).Holds holds := by
  induction names generalizing frames with
  | nil => exact held
  | cons entry rest ih =>
    have later := fun other member => carried other (List.mem_cons_of_mem entry member)
    unfold named
    rw [List.foldl_cons]
    cases bound : frames.setVariable Arena.root entry.1 entry.2 with
    | error cause => exact ih frames later held
    | ok after => exact ih after later (carried entry List.mem_cons_self frames after held bound)

theorem start_tame (config : Config) : (Machine.start config).Tame leeway := by
  have outermost : Arena.initial.Holds (Frame.Tame leeway) := by
    intro id frame found
    obtain ⟨rfl, rfl⟩ := Arena.initial_found id frame found
    exact ⟨NameMap.all_empty (Value.Tame leeway), (fun _ none => by cases none), fun inner => by cases inner⟩
  have names : ∀ entry ∈ (Machine.initial config).givenNames, entry.2.Tame leeway := by
    intro entry member
    simp only [givenNames, List.mem_cons, List.not_mem_nil, or_false] at member
    rcases member with rfl | rfl | rfl | rfl | rfl
    iterate 3 exact ClassTable.tame_builtin leeway _ _ _ _
    iterate 2 exact ClassTable.tame_flag leeway _
  have framesTame : (Machine.start config).frames.Holds (Frame.Tame leeway) := by
    rw [show (Machine.start config).frames = _ from (Machine.initial config).prelude_frames]
    exact named_holds _ _ Arena.initial (fun entry member arena after held bound =>
      arena.tame_set_variable leeway after held Arena.root entry.1 entry.2 (names entry member) bound) outermost
  exact ⟨rfl, framesTame, fun task value ready => absurd ((TaskTable.state_empty task).symm.trans ready) (by simp),
    List.forall_mem_nil _, List.forall_mem_nil _, List.forall_mem_nil _⟩

theorem start_fit (config : Config) : (Stage.start config).Fit leeway :=
  ⟨Stage.start_sound config, ⟨fun _ => Nat.zero_le 1, List.forall_mem_nil _⟩, start_tame leeway config⟩

end Machine

section Program
variable {leeway : Leeway} (machine : Machine) (fit : (Stage.mk [] [] machine).Fit leeway)
include fit

namespace Machine

theorem clear_fit : (Stage.mk [] [] { machine with halted := false }).Fit leeway :=
  Stage.step_fit _ fit _
    (.quiet _ machine.output false machine.nextIdentity machine.clock machine.ready)
    ⟨fit.tame.classes, fit.tame.frames, fit.tame.tasks, fit.tame.microtasks, fit.tame.runners, fit.tame.ready⟩

theorem load_fit (lines : List Node) (fits : Node.allPrudent leeway false lines = true) (runner : RunnerId)
    (loaded : Machine) (load : Exec.loadProgram lines Arena.root machine = .done runner loaded) :
    (Stage.mk [] [] loaded).Fit leeway := by
  have leads := (Stage.load_leads _ lines Arena.root runner loaded fit.sound load).1
  refine ⟨Stage.leads_sound _ _ _ fit.sound leads, Stage.leads_due _ _ _ fit.due leads, ?_⟩
  obtain ⟨opened, id, created, rest⟩ := Exec.done_of_bind _ _ _ loaded runner load
  obtain ⟨advanced, _, moved, last⟩ := Exec.done_of_bind _ _ _ loaded runner rest
  cases last
  obtain ⟨openedTame, _⟩ := machine.tame_opened leeway fit.tame lines Arena.root runner opened fits created
  have openedSound := step_sound _ _ fit.sound (.openBlock ⟨[], [], machine⟩ lines Arena.root runner opened created)
  refine opened.tame_advanced leeway openedTame runner _ openedSound.numbered (fun content known => ?_) moved
  -- The number of the new runner is nobody else's.
  obtain ⟨frames, functionFrame, _, _, fresh, rfl⟩ := Exec.create_runner_done lines Arena.root runner machine opened created
  rcases List.mem_append.mp (List.mem_of_find?_eq_some (runner_found _ runner content known)) with old | new
  · have bounded := fit.sound.numbered.bounded _ old
    rw [fresh] at bounded
    exact absurd bounded (Nat.not_succ_le_self _)
  · cases List.mem_singleton.mp new
    rfl

theorem reset_fit (after : Machine) (dropped : Exec.reset machine = .done () after) :
    (Stage.mk [] [] after).Fit leeway ∧ after.halted = machine.halted := by
  obtain ⟨again, resets, afterSound⟩ := Stage.reset_sound _ fit.sound rfl
  obtain rfl : again = after := by
    rw [show Exec.reset machine = _ from resets] at dropped
    cases dropped
    rfl
  obtain ⟨frames, shrinks, rfl⟩ := Exec.reset_done machine again fit.sound.numbered.distinct dropped
  refine ⟨⟨afterSound, Stage.due_fewer _ _ fit.due rfl fun task => ?_, fit.tame.classes,
    machine.frames.tame_shrinks leeway frames fit.tame.frames shrinks, fit.tame.tasks, List.forall_mem_nil _,
    List.forall_mem_nil _, List.forall_mem_nil _⟩, rfl⟩
  rw [Stage.count_settlers, Stage.count_settlers]
  exact Nat.add_le_add_right (Nat.add_le_add_right (Nat.zero_le _) _) _

theorem finish_fit (runner : RunnerId) (last : Option Value) (after : Machine)
    (finish : Exec.finishRunner runner machine = .done last after) : (Stage.mk [] [] after).Fit leeway :=
  Stage.step_fit _ fit _ (.closing _ _ (.closeBlock _ runner last after finish))
    (machine.tame_finished leeway fit.tame runner last after finish).1

end Machine

namespace Engine
variable (engine : Engine) (prudent : engine.Prudent leeway)
include prudent

-- However a program ends, it leaves a fit machine; and it fails on a halted one only in a way that is allowed.
theorem program_exits (lines : List Node) (fits : Node.allPrudent leeway false lines = true) (after : Machine)
    (left : (engine.evalProgram lines machine).Leaves after) :
    (Stage.mk [] [] after).Fit leeway ∧
      ∀ failure, engine.evalProgram lines machine = .failed failure after → after.halted = true →
        leeway.Allows failure := by
  rcases (Stage.mk [] [] machine).program_runs lines engine prudent.lawful fit.sound rfl with
    exhausted | ⟨runner, loaded, load, _, _, ended⟩
  · rw [show engine.evalProgram lines machine = _ from exhausted] at left
    rcases left with ⟨_, same⟩ | ⟨_, same⟩ <;> cases same
  have ready := Machine.load_fit _ (machine.clear_fit fit) lines fits runner loaded load
  have runs : (Stage.mk [] [] loaded).Bears leeway Anyhow (fun _ => True) engine.run :=
    engine.tends_run prudent _ ready (Stage.root_firm _) trivial
  rcases ended with ⟨value, last, finished, _, run, _, finish, same⟩ | ⟨failure, broken, _, run, _, dropped, same⟩
  all_goals
    rw [show engine.evalProgram lines machine = _ from same] at left ⊢
    rcases left with ⟨_, same⟩ | ⟨_, same⟩ <;> cases same
  · have finishedFit : (Stage.mk [] [] finished).Fit leeway := Stage.bears_fit _ ready runs finished (.inl ⟨_, run⟩)
    exact ⟨finished.finish_fit finishedFit runner last after finish, fun _ failed => by cases failed⟩
  · have brokenFit : (Stage.mk [] [] broken).Fit leeway := Stage.bears_fit _ ready runs broken (.inr ⟨_, run⟩)
    obtain ⟨afterFit, sameHalt⟩ := broken.reset_fit brokenFit after dropped
    refine ⟨afterFit, fun _ failed halted => ?_⟩
    cases failed
    have outcome : (engine.run loaded).Bears leeway Anyhow fun _ => True := runs.2
    rw [run] at outcome
    exact outcome.2 (sameHalt ▸ halted)

end Engine

end Program

/-- The machines between evaluations that come one after the other, each of a program of some leeway or of a text that is
none. Any of them may have ended by `exit`. -/
inductive PrudentSession (leeway : Leeway) (config : Config) : Machine → Prop where
  | start : PrudentSession leeway config (Machine.start config)
  | next (machine after : Machine) (fuel : Nat) (source : String) (earlier : PrudentSession leeway config machine)
      (fits : ∀ lines, RuleSet.standard.parse source none = some (.ok lines) → Node.allPrudent leeway false lines = true)
      (left : ((RuleSet.standard.engine fuel).evalSource source machine).Leaves after) :
      PrudentSession leeway config after

namespace Engine

theorem source_left (fuel : Nat) (source : String) (machine after : Machine)
    (left : ((RuleSet.standard.engine fuel).evalSource source machine).Leaves after) :
    (∃ lines, RuleSet.standard.parse source none = some (.ok lines) ∧
        (RuleSet.standard.engine fuel).evalSource source machine =
          (RuleSet.standard.engine fuel).evalProgram lines machine) ∨
      (∀ lines, RuleSet.standard.parse source none ≠ some (.ok lines)) ∧ after = machine := by
  unfold evalSource at left ⊢
  cases fuel with
  | zero => rcases left with ⟨_, same⟩ | ⟨_, same⟩ <;> cases same
  | succ fuel =>
    have reads : (RuleSet.standard.engine (fuel + 1)).parse source = RuleSet.standard.load source none := rfl
    rw [reads] at left ⊢
    unfold RuleSet.load at left ⊢
    cases read : RuleSet.standard.parse source none with
    | none =>
      rw [read] at left
      rcases left with ⟨_, same⟩ | ⟨_, same⟩ <;> cases same
    | some program =>
      rw [read] at left
      cases program with
      | ok lines => exact .inl ⟨lines, rfl, rfl⟩
      | error diagnostic =>
        refine .inr ⟨(fun lines other => by cases other), ?_⟩
        rcases left with ⟨_, same⟩ | ⟨_, same⟩ <;> cases same
        rfl

end Engine

theorem prudent_session_fit (leeway : Leeway) (config : Config) (machine : Machine)
    (session : PrudentSession leeway config machine) : (Stage.mk [] [] machine).Fit leeway := by
  induction session with
  | start => exact Machine.start_fit leeway config
  | next machine after fuel source _ fits left fit =>
    rcases Engine.source_left fuel source machine after left with ⟨lines, parsed, same⟩ | ⟨_, rfl⟩
    · rw [same] at left
      exact (Engine.program_exits machine fit _ (RuleSet.prudent_engine leeway fuel) lines (fits lines parsed) after
        left).1
    · exact fit

/-- An evaluation that `exit` has stopped ends well, if what a call gives is used in its program only where every value
will do. Where promises are waited for, calls stand in arguments, or more is risked, it can fail too, but only over
that. -/
theorem exit_ends_well (leeway : Leeway) (config : Config) (machine : Machine)
    (session : PrudentSession leeway config machine) (fuel : Nat) (source : String)
    (admitted : leeway.admits source = true) (after : Machine)
    (left : ((RuleSet.standard.engine fuel).evalSource source machine).Leaves after) (halted : after.halted = true) :
    ((∃ value, (RuleSet.standard.engine fuel).evalSource source machine = .done value after) ∨
        ∃ failure, (RuleSet.standard.engine fuel).evalSource source machine = .failed failure after ∧
          leeway.Allows failure) ∧
      (leeway.awaits = false → leeway.nests = false → leeway.risks = false →
        ∃ value, (RuleSet.standard.engine fuel).evalSource source machine = .done value after) := by
  obtain ⟨lines, parsed, fits⟩ := leeway.admitted_lines source admitted
  have fit := prudent_session_fit leeway config machine session
  have allowed : ∀ failure, (RuleSet.standard.engine fuel).evalSource source machine = .failed failure after →
      leeway.Allows failure := by
    rcases Engine.source_left fuel source machine after left with ⟨other, read, same⟩ | ⟨unread, _⟩
    · obtain rfl : lines = other := by
        rw [parsed] at read
        cases read
        rfl
      rw [same] at left ⊢
      exact fun failure failed => (Engine.program_exits machine fit _ (RuleSet.prudent_engine leeway fuel) lines fits
        after left).2 failure failed halted
    · exact absurd parsed (unread lines)
  rcases left with done | ⟨failure, failed⟩
  · exact ⟨.inl done, fun _ _ _ => done⟩
  · refine ⟨.inr ⟨failure, failed, allowed failure failed⟩, fun unwaiting unnested careful => ?_⟩
    obtain ⟨awaits, nests, risks⟩ := leeway
    cases unwaiting
    cases unnested
    cases careful
    exact absurd (allowed failure failed) (Leeway.strict_allows_nothing failure)

-- A loop in a function is stopped amid an array; the next program then waits for a promise in vain.
theorem stopped_array_ends_well : ∃ (value : Value) (first second : Machine) (failure : Failure),
    (RuleSet.standard.engine 30).evalSource "fn stop() \x7b while (true) \x7b exit() \x7d \x7d x = [1, stop()]"
        (Machine.start .standard) = .done value first ∧ first.halted = true ∧
      (RuleSet.standard.engine 30).evalSource
          "async fn one() \x7b stop() \x7d async fn two() \x7b return 2 \x7d x = one(); await two()" first =
        .failed failure second ∧ (Leeway.mk true false false).Allows failure := by
  let engine := RuleSet.standard.engine 30
  let strict : Leeway := ⟨false, false, false⟩
  let waiting : Leeway := ⟨true, false, false⟩
  let stopping := "fn stop() \x7b while (true) \x7b exit() \x7d \x7d x = [1, stop()]"
  let failing := "async fn one() \x7b stop() \x7d async fn two() \x7b return 2 \x7d x = one(); await two()"
  obtain ⟨value, first, ended, facts⟩ := Outcome.ends_with_done (engine.evalSource stopping (Machine.start .standard))
    (fun first => first.halted && (engine.evalSource failing first).failsWith fun _ second => second.halted)
    (by decide +kernel)
  simp only [Bool.and_eq_true] at facts
  obtain ⟨halted, fails⟩ := facts
  obtain ⟨failure, second, failed, stillHalted⟩ := Outcome.fails_with_failed _ _ fails
  obtain ⟨_, well⟩ := exit_ends_well strict .standard _ .start 30 stopping (by decide +kernel) first
    (.inl ⟨value, ended⟩) halted
  obtain ⟨last, done⟩ := well rfl rfl rfl
  have session : PrudentSession waiting .standard first := by
    refine .next _ first 30 stopping .start (fun lines parsed => ?_) (.inl ⟨value, ended⟩)
    obtain ⟨other, read, fits⟩ := waiting.admitted_lines stopping (by decide +kernel)
    rw [parsed] at read
    cases read
    exact fits
  obtain ⟨ends, _⟩ := exit_ends_well waiting .standard first session 30 failing (by decide +kernel) second
    (.inr ⟨failure, failed⟩) stillHalted
  rcases ends with ⟨other, same⟩ | ⟨reason, same, allowed⟩ <;> rw [failed] at same <;> cases same
  exact ⟨last, first, second, failure, done, halted, failed, allowed⟩

-- A function cut short gives void, which cannot be added; and who waits is interrupted.
theorem exit_can_fail : (∃ failure after, (RuleSet.standard.engine 30).evalSource
      "fn stop() \x7b exit(); return 1 \x7d 1 + stop()" (Machine.start .standard) = .failed failure after ∧
        after.halted = true) ∧
    ∃ failure after, (RuleSet.standard.engine 30).evalSource
      "async fn one() \x7b exit() \x7d async fn two() \x7b return 2 \x7d x = one(); await two()"
        (Machine.start .standard) = .failed failure after ∧ after.halted = true :=
  ⟨Outcome.fails_with_failed _ (fun _ after => after.halted) (by decide +kernel),
    Outcome.fails_with_failed _ (fun _ after => after.halted) (by decide +kernel)⟩

end CoopScript
