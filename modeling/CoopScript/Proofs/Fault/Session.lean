import CoopScript.Proofs.Fault.Language
import CoopScript.Proofs.Fault.Reading

set_option autoImplicit false
namespace CoopScript

namespace Machine

theorem start_within (config : Config) : (Machine.start config).Within := by
  have outermost : Arena.initial.Holds fun _ frame => frame.Within (Machine.start config).tasks.count := by
    intro id frame found
    obtain ⟨rfl, rfl⟩ := Arena.initial_found id frame found
    exact ⟨NameMap.all_empty _, fun _ none => by cases none⟩
  have names : ∀ entry ∈ (Machine.initial config).givenNames, entry.2.Within (Machine.start config).tasks.count := by
    intro entry member
    simp only [givenNames, List.mem_cons, List.not_mem_nil, or_false] at member
    rcases member with rfl | rfl | rfl | rfl | rfl
    iterate 3 exact ClassTable.within_function _ _ _
    iterate 2 exact ClassTable.within_scalar _ (.flag _)
  refine ⟨?_, fun task value ready => absurd ((TaskTable.state_empty task).symm.trans ready) (by simp)⟩
  rw [show (Machine.start config).frames = _ from (Machine.initial config).prelude_frames]
  exact named_holds _ _ Arena.initial (fun entry member arena after held bound =>
    arena.within_set_variable _ after held Arena.root entry.1 entry.2 (names entry member) bound) outermost

theorem start_clear (config : Config) : (Stage.start config).Clear := ⟨start_fit .full config, start_within config⟩

variable (machine : Machine) (clear : (Stage.mk [] [] machine).Clear)
include clear

theorem load_clear (lines : List Node) (fits : Node.allPrudent .full false lines = true) (runner : RunnerId)
    (loaded : Machine) (load : Exec.loadProgram lines Arena.root machine = .done runner loaded) :
    (Stage.mk [] [] loaded).Clear := by
  refine ⟨machine.load_fit clear.fit lines fits runner loaded load, ?_⟩
  obtain ⟨opened, id, created, rest⟩ := Exec.done_of_bind _ _ _ loaded runner load
  obtain ⟨advanced, _, moved, last⟩ := Exec.done_of_bind _ _ _ loaded runner rest
  cases last
  obtain ⟨openedWithin, _⟩ := machine.within_opened clear.within lines Arena.root runner opened created
  exact (opened.within_advanced openedWithin runner _ moved).1

theorem reset_clear (after : Machine) (dropped : Exec.reset machine = .done () after) :
    (Stage.mk [] [] after).Clear := by
  refine ⟨(machine.reset_fit clear.fit after dropped).1, ?_⟩
  obtain ⟨frames, shrinks, rfl⟩ :=
    Exec.reset_done machine after clear.fit.sound.numbered.distinct dropped
  exact ⟨machine.frames.within_shrinks _ frames clear.within.frames shrinks, clear.within.tasks⟩

end Machine

-- However a program ends, the machine is as it has to be for the next one, and no failure is the interpreter's.
theorem Engine.program_clears (engine : Engine) (engineClear : engine.Clear) (machine : Machine)
    (clear : (Stage.mk [] [] machine).Clear) (lines : List Node) (fits : Node.allPrudent .full false lines = true)
    (after : Machine) (left : (engine.evalProgram lines machine).Leaves after) :
    (Stage.mk [] [] after).Clear ∧
      ∀ failure, engine.evalProgram lines machine = .failed failure after → failure.Clean := by
  rcases (Stage.mk [] [] machine).program_runs lines engine engineClear.prudent.lawful clear.fit.sound rfl with
    exhausted | ⟨runner, loaded, load, _, _, ended⟩
  · rw [show engine.evalProgram lines machine = _ from exhausted] at left
    rcases left with ⟨_, same⟩ | ⟨_, same⟩ <;> cases same
  have begun : (Stage.mk [] [] { machine with halted := false }).Clear :=
    ⟨machine.clear_fit clear.fit, clear.within.frames, clear.within.tasks⟩
  have ready := Machine.load_clear _ begun lines fits runner loaded load
  have runs : (Stage.mk [] [] loaded).Clears (fun _ _ => True) engine.run :=
    engine.clears_run engineClear _ ready (Stage.root_firm _) rfl
  rcases ended with ⟨value, last, finished, _, run, _, finish, same⟩ | ⟨failure, broken, _, run, _, dropped, same⟩
  all_goals
    rw [show engine.evalProgram lines machine = _ from same] at left ⊢
    rcases left with ⟨_, same⟩ | ⟨_, same⟩ <;> cases same
  · have finishedClear : (Stage.mk [] [] finished).Clear :=
      Stage.clears_left _ ready runs finished (.inl ⟨_, run⟩)
    refine ⟨⟨finished.finish_fit finishedClear.fit runner last after finish, ?_⟩, fun _ failed => by cases failed⟩
    exact (finished.within_finished finishedClear.within runner last after finish).1
  · have brokenClear : (Stage.mk [] [] broken).Clear := Stage.clears_left _ ready runs broken (.inr ⟨_, run⟩)
    refine ⟨broken.reset_clear brokenClear after dropped, fun _ failed => ?_⟩
    cases failed
    have outcome : (engine.run loaded).Clears loaded.tasks.count fun _ _ => True := runs.2
    rw [run] at outcome
    exact outcome.2.2

-- What can be evaluated: a text, or what a file holds, if it is there.
inductive Script where
  | text (source : String)
  | file (name : String) (content : Option String)

namespace Script

def run (fuel : Nat) : Script → Exec Value
  | text source => (RuleSet.standard.engine fuel).evalSource source
  | file name content => RuleSet.standard.evalFile fuel name content

theorem run_cases (fuel : Nat) (script : Script) (machine : Machine) :
    script.run fuel machine = .outOfFuel ∨
      (∃ lines, Node.allPrudent .full false lines = true ∧
        script.run fuel machine = (RuleSet.standard.engine fuel).evalProgram lines machine) ∨
      ∃ failure, script.run fuel machine = .failed failure machine ∧ failure.Clean := by
  have loaded : ∀ source file, (RuleSet.standard.load source file >>=
        (RuleSet.standard.engine fuel).evalProgram) machine = .outOfFuel ∨
      (∃ lines, Node.allPrudent .full false lines = true ∧ (RuleSet.standard.load source file >>=
        (RuleSet.standard.engine fuel).evalProgram) machine =
          (RuleSet.standard.engine fuel).evalProgram lines machine) ∨
      ∃ failure, (RuleSet.standard.load source file >>=
        (RuleSet.standard.engine fuel).evalProgram) machine = .failed failure machine ∧ failure.Clean := by
    intro source file
    unfold RuleSet.load
    cases read : RuleSet.standard.parse source file with
    | none => exact .inl rfl
    | some program =>
      cases program with
      | ok lines => exact .inr (.inl ⟨lines, RuleSet.parsed_full source file lines read, rfl⟩)
      | error diagnostic =>
        refine .inr (.inr ⟨.fault diagnostic, rfl, ?_⟩)
        rintro cause ⟨_, same, rfl⟩
        cases same
        exact RuleSet.refused_fair source file diagnostic read
  cases script with
  | text source =>
    cases fuel with
    | zero => exact .inl rfl
    | succ fuel => exact loaded source none
  | file name content =>
    cases content with
    | none => exact .inr (.inr ⟨.missingFile, rfl, fun cause ⟨_, same, _⟩ => by cases same⟩)
    | some source => exact loaded source (some name)

end Script

-- The machines between scripts that are evaluated one after the other.
inductive ScriptSession (config : Config) : Machine → Prop where
  | start : ScriptSession config (Machine.start config)
  | next (machine after : Machine) (fuel : Nat) (script : Script) (earlier : ScriptSession config machine)
      (left : (script.run fuel machine).Leaves after) : ScriptSession config after

theorem script_session_clear (config : Config) (machine : Machine) (session : ScriptSession config machine) :
    (Stage.mk [] [] machine).Clear := by
  induction session with
  | start => exact Machine.start_clear config
  | next machine after fuel script _ left clear =>
    rcases script.run_cases fuel machine with same | ⟨lines, fits, same⟩ | ⟨failure, same, _⟩ <;> rw [same] at left
    · rcases left with ⟨_, none⟩ | ⟨_, none⟩ <;> cases none
    · exact (Engine.program_clears _ (RuleSet.clear_engine fuel) machine clear lines fits after left).1
    · rcases left with ⟨_, other⟩ | ⟨_, other⟩ <;> cases other
      exact clear

/-- Whatever scripts have been evaluated before, and whether they failed, exited or left work behind, no script fails with
one of the faults that would be the interpreter's own. -/
theorem script_faults_own (config : Config) (machine : Machine) (session : ScriptSession config machine) (fuel : Nat)
    (script : Script) (failure : Failure) (after : Machine)
    (failed : script.run fuel machine = .failed failure after) (cause : Cause) (has : failure.HasCause cause) :
    cause.isInternal = false := by
  have clear := script_session_clear config machine session
  rcases script.run_cases fuel machine with same | ⟨lines, fits, same⟩ | ⟨own, same, clean⟩
  · exact nomatch same.symm.trans failed
  · rw [same] at failed
    exact (Engine.program_clears _ (RuleSet.clear_engine fuel) machine clear lines fits after
      (.inr ⟨failure, failed⟩)).2 failure failed cause has
  · cases same.symm.trans failed
    exact clean cause has

def Failure.isFault : Failure → Bool
  | .fault _ => true
  | .missingFile => false

-- A body that fails takes its promise along; the next script then waits for it in vain.
theorem broken_body_faults_own : ∃ (first second : Failure) (broken after : Machine) (cause : Cause),
    (Script.text "async fn one() \x7b return missing \x7d p = one(); sleep(5)").run 30 (Machine.start .standard) =
        .failed first broken ∧
      (Script.text "await p").run 30 broken = .failed second after ∧ second.HasCause cause ∧
      cause.isInternal = false := by
  let breaking := Script.text "async fn one() \x7b return missing \x7d p = one(); sleep(5)"
  let waiting := Script.text "await p"
  obtain ⟨first, broken, ended, facts⟩ := Outcome.fails_with_failed (breaking.run 30 (Machine.start .standard))
    (fun _ broken => (waiting.run 30 broken).failsWith fun failure _ => failure.isFault)
    (by decide +kernel)
  obtain ⟨second, after, failed, faulty⟩ := Outcome.fails_with_failed _ _ facts
  have session : ScriptSession .standard broken := .next _ broken 30 breaking .start (.inr ⟨first, ended⟩)
  cases second with
  | missingFile => cases faulty
  | fault diagnostic =>
    have has : (Failure.fault diagnostic).HasCause diagnostic.cause := ⟨diagnostic, rfl, rfl⟩
    exact ⟨first, _, broken, after, diagnostic.cause, ended, failed, has,
      script_faults_own .standard broken session 30 waiting _ after failed _ has⟩

end CoopScript
