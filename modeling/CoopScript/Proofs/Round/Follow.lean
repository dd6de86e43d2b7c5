import CoopScript.Proofs.Await.Wait
import CoopScript.Proofs.Lens.Ends
import CoopScript.Proofs.Machine.Halt
import CoopScript.Proofs.Round.Block
import CoopScript.Proofs.Stage.Setting

set_option autoImplicit false
namespace CoopScript

namespace Engine
variable (engine : Engine)

-- Runs lines in the outermost frame up to a halt. Gives the value of the last one that had one, and the lines that
-- are left.
def follow : List Node → Exec (Option Value × List Node)
  | [] => return (none, [])
  | node :: rest => do
    if ← Exec.isHalted then return (none, node :: rest)
    let value ← engine.executeLine node Arena.root
    let (later, left) ← follow rest
    return (later.or value, left)

variable (node : Node) (lines others : List Node) (machine after : Machine)

theorem follow_halted (halted : machine.halted = true) : engine.follow lines machine = .done (none, lines) machine := by
  cases lines with
  | nil => rfl
  | cons node rest =>
    unfold follow
    rw [Exec.halted_then, if_pos halted]
    rfl

theorem follow_cons (up : machine.halted = false) : engine.follow (node :: lines) machine =
    (engine.executeLine node Arena.root >>= fun value => engine.follow lines >>= fun ran =>
      Pure.pure (ran.1.or value, ran.2) : Exec (Option Value × List Node)) machine := by
  rw [follow, Exec.halted_then, up]
  rfl

theorem follow_left (ran : Option Value × List Node) (done : engine.follow lines machine = .done ran after) :
    ran.2 = [] ∨ after.halted = true := by
  induction lines generalizing machine ran with
  | nil =>
    cases done
    exact .inl rfl
  | cons node rest ih =>
    cases halted : machine.halted with
    | true =>
      rw [engine.follow_halted _ machine halted] at done
      cases done
      exact .inr halted
    | false =>
      rw [engine.follow_cons node rest machine halted] at done
      obtain ⟨middle, value, _, later⟩ := Exec.done_of_bind _ _ machine after ran done
      obtain ⟨last, further, went, ended⟩ := Exec.done_of_bind _ _ middle after ran later
      cases ended
      exact ih middle further went

theorem follow_append (middle : Machine) (value : Option Value)
    (done : engine.follow lines machine = .done (value, []) middle) : engine.follow (lines ++ others) machine =
      (engine.follow others >>= fun ran => Pure.pure (ran.1.or value, ran.2) : Exec (Option Value × List Node)) middle := by
  induction lines generalizing machine value with
  | nil =>
    cases done
    simp only [List.nil_append, Bind.bind, Exec.bind, Option.or_none]
    cases engine.follow others middle <;> rfl
  | cons node rest ih =>
    cases halted : machine.halted with
    | true =>
      rw [engine.follow_halted _ machine halted] at done
      cases done
    | false =>
      rw [engine.follow_cons node rest machine halted] at done
      obtain ⟨next, first, ran, later⟩ := Exec.done_of_bind _ _ machine middle _ done
      obtain ⟨last, ⟨further, left⟩, went, ended⟩ := Exec.done_of_bind _ _ next middle _ later
      cases ended
      rw [List.cons_append, engine.follow_cons node _ machine halted, Exec.bind_done _ _ _ _ _ ran]
      refine (Exec.bind_same _ _ _ _ _ (ih next further went)).trans ?_
      rw [Exec.bind_assoc]
      refine Exec.bind_next _ _ _ _ fun ran after _ => ?_
      simp [Bind.bind, Exec.bind, Pure.pure, Exec.pure, Option.or_assoc]

theorem lawful_follow (lawful : engine.Lawful) : (engine.follow lines).Lawful fun _ => True := by
  induction lines with
  | nil => exact Exec.lawful_pure (fun _ => True) _ trivial
  | cons node rest ih =>
    refine Exec.lawful_bind (fun _ => True) _ _ _ (Exec.lawful_seen _) fun halted _ => ?_
    split
    · exact Exec.lawful_pure (fun _ => True) _ trivial
    · refine Exec.lawful_bind _ _ _ _ (engine.lawful_execute_line lawful node Arena.root) fun value _ => ?_
      exact Exec.lawful_bind _ _ _ _ ih fun ran _ => Exec.lawful_pure (fun _ => True) _ trivial

section Seen
variable {lens : Lens} {given : Option Bound → Prop} {engine twin : Engine}

def seeRan (lens : Lens) (ran : Option Value × List Node) : Option Value × List Node :=
  (ran.1.map lens.value, lens.lines ran.2)

theorem follow_through (through : engine.Through lens twin) : (engine.follow lines).Through lens given
    (twin.follow (lens.lines lines)) (seeRan lens) fun _ _ => True := by
  induction lines with
  | nil => exact Exec.through_pure _ _ rfl fun _ _ => trivial
  | cons node rest ih =>
    refine Exec.through_bind Exec.through_is_halted fun halted => ?_
    dsimp only [id, lens.lines_cons]
    split
    · exact Exec.through_pure _ _ rfl fun _ _ => trivial
    · refine Exec.through_bind (execute_line_through through node Arena.root) fun value => ?_
      refine Exec.through_bind (Exec.through_given ih fun _ both => both.1.1) fun ran => ?_
      refine Exec.through_pure _ _ (Prod.ext ?_ rfl) fun _ _ => trivial
      obtain ⟨_ | later, left⟩ := ran <;> rfl

end Seen

end Engine

namespace Lens

-- All is seen as it is, with other runners before those of the machine.
def behind (outer : List (RunnerId × Runner)) (offset : Nat) (outside : ∀ entry ∈ outer, entry.1.number ≤ offset) : Lens where
  blurs := false
  deaf _ := false
  offset := offset
  outer := outer
  bound := none
  extra := []
  exact := True
  outside := outside
  hears := none_deaf

section Behind
variable (outer : List (RunnerId × Runner)) (offset : Nat) (outside : ∀ entry ∈ outer, entry.1.number ≤ offset)

@[simp] theorem behind_value (value : Value) : (behind outer offset outside).value value = value :=
  (behind outer offset outside).value_same rfl value (value.bears_all _ fun _ => rfl)

theorem behind_ran (ran : Option Value × List Node) : Engine.seeRan (behind outer offset outside) ran = ran := by
  obtain ⟨_ | value, lines⟩ := ran <;> simp [Engine.seeRan, (behind outer offset outside).lines_sharp rfl]

theorem behind_machine (machine : Machine) (ready : machine.ready = []) (runners : machine.runners = []) :
    (behind outer offset outside).machine machine =
      { machine with runners := outer, runnerCount := machine.runnerCount + offset } := by
  have kept := machine.keeps_all (behind_value outer offset outside)
  have tasks : (behind outer offset outside).tasks machine.tasks = machine.tasks :=
    congrArg TaskTable.mk ((behind outer offset outside).states_same _ kept.tasks)
  rw [(behind outer offset outside).machine_sharp rfl machine kept, tasks, runners]
  simp [ready, behind]

end Behind

theorem through_ending {α β : Type} {lens : Lens} {given : Option Bound → Prop} {step : Exec α} {twin : Exec β} {see : α → β}
    {good : Option Bound → α → Prop} (through : step.Through lens given twin see good) (all : lens.bound = none)
    (exactly : lens.exact) (plain : given none) (machine : Machine) (fits : machine.Fits none) :
    twin (lens.machine machine) = lens.ending see (step machine) := by
  have seen := through.seen plain (all ▸ plain) machine fits (all ▸ fits)
  generalize step machine = outcome at seen ⊢
  generalize twin (lens.machine machine) = other at seen ⊢
  cases seen with
  | done | failed | outOfFuel => rfl
  | short _ inexact => exact absurd exactly inexact
  | escaped _ _ bound bounded => cases all.symm.trans bounded

end Lens

namespace Machine

-- Nothing is in progress in the machine but what somebody holds a frame for, and no line is ready.
structure Core (held : List FrameId) (machine : Machine) : Prop where
  sound : (Stage.mk [] held machine).Sound
  ready : machine.ready = []
  runners : machine.runners = []

def hosting (machine : Machine) (id : RunnerId) (runner : Runner) (ready : List Line) : Machine :=
  { machine with ready := ready, runners := [(id, runner)], runnerCount := machine.runnerCount + id.number }

def carrying (machine : Machine) (id : RunnerId) (lines : List Node) (last : Option Value) : Machine :=
  let track : Track := ⟨id, Arena.root, none, lines⟩
  machine.hosting id (track.state last) track.queue.head?.toList

section Core
variable {α β : Type} {lens : Lens} {given : Option Bound → Prop} {step : Exec α} {twin : Exec β} {see : α → β}
  {good : Option Bound → α → Prop} {fine : α → Prop} {held : List FrameId} {machine after : Machine}

theorem Core.fits (core : machine.Core held) : machine.Fits none := core.sound.fits

theorem Core.left_by (core : machine.Core held) (lawful : step.Lawful fine) (through : step.Through lens given twin see good)
    (inside : lens.Inside) (plain : given none) (left : (step machine).Leaves after) :
    after.Core held ∧ machine.tasks.count ≤ after.tasks.count := by
  have follows := lawful (Stage.mk [] held machine) core.sound
  obtain ⟨_, grows⟩ := Outcome.kept_grows (through.kept plain machine core.fits) after left
  -- Runners that are registered at the end were so at the beginning, and then there were none.
  have none : machine.registered = [] := by simp [registered, core.runners]
  have registered := (Stage.mk [] held machine).follows_registered _ step after follows left
  rw [show (Stage.mk [] held machine).machine.registered = [] from none] at registered
  exact ⟨⟨(Stage.mk [] held machine).follows_sound _ step after core.sound follows left, (grows.ready inside).trans core.ready,
    List.map_eq_nil_iff.mp registered.eq_nil⟩, grows.tasks⟩

end Core

end Machine

-- All is seen as it is, with one runner before those of the machine.
def Lens.hosting (id : RunnerId) (runner : Runner) : Lens :=
  .behind [(id, runner)] id.number (List.forall_mem_singleton.mpr (Nat.le_refl _))

theorem Lens.hosting_machine (id : RunnerId) (runner : Runner) (held : List FrameId) (machine : Machine)
    (core : machine.Core held) : (hosting id runner).machine machine = machine.hosting id runner [] := by
  rw [hosting, behind_machine _ _ _ machine core.ready core.runners, Machine.hosting, ← core.ready]

namespace Exec
variable (machine : Machine) (id : RunnerId) (runner : Runner)

theorem record_hosted (value : Option Value) : record id value (machine.hosting id runner []) =
    .done () (machine.hosting id { runner with last := value.or runner.last } []) := by
  cases value with
  | none => rfl
  | some value => simp [record, modify, Machine.updateRunner, Machine.hosting]

theorem advance_hosted (lines : List Node) (last : Option Value) :
    advance id (machine.hosting id ⟨Arena.root, none, lines, last, false⟩ []) = .done () (machine.carrying id lines last) := by
  have known : (machine.hosting id ⟨Arena.root, none, lines, last, false⟩ []).runner? id =
      some ⟨Arena.root, none, lines, last, false⟩ := by
    simp [Machine.runner?, Machine.hosting]
  have unreturned : (machine.hosting id ⟨Arena.root, none, lines, last, false⟩ []).runnerReturned id = false := by
    simp [Machine.runnerReturned, known]
  unfold advance
  rw [read_then, unreturned, read_then, known]
  cases lines with
  | nil => simp [modify, Machine.updateRunner, Machine.hosting, Machine.carrying, Track.state, Track.queue, linesOf]
  | cons node rest =>
    simp [modify_then, enqueueLine, modify, Machine.updateRunner, Machine.hosting, Machine.carrying, Track.state, Track.queue,
      linesOf]

end Exec

namespace Engine
variable (fuel : Nat) (held : List FrameId) (machine : Machine) (core : machine.Core held) (id : RunnerId)
include core

theorem core_line (node : Node) (after : Machine)
    (left : ((RuleSet.standard.engine fuel).executeLine node Arena.root machine).Leaves after) :
    after.Core held ∧ machine.tasks.count ≤ after.tasks.count :=
  core.left_by (lawful_execute_line _ (RuleSet.lawful_engine fuel) node Arena.root)
    (execute_line_through (RuleSet.through_engine (.hosting ⟨0⟩ ⟨Arena.root, none, [], none, true⟩) fuel fuel (Nat.le_refl _)
      fun _ => rfl) node Arena.root : Exec.Through _ (fun _ => True) _ _ _ _) (List.cons_ne_nil _ _) trivial left

theorem core_follow (lines : List Node) (after : Machine)
    (left : ((RuleSet.standard.engine fuel).follow lines machine).Leaves after) :
    after.Core held ∧ machine.tasks.count ≤ after.tasks.count :=
  core.left_by (lawful_follow _ lines (RuleSet.lawful_engine fuel))
    (follow_through lines (RuleSet.through_engine (.hosting ⟨0⟩ ⟨Arena.root, none, [], none, true⟩) fuel fuel (Nat.le_refl _)
      fun _ => rfl) : Exec.Through _ (fun _ => True) _ _ _ _) (List.cons_ne_nil _ _) trivial left

-- A line does not see the runner that it is run for.
theorem line_hosted (node : Node) (runner : Runner) :
    (RuleSet.standard.engine fuel).executeLine node Arena.root (machine.hosting id runner []) =
      (Lens.hosting id runner).ending (fun value => value)
        ((RuleSet.standard.engine fuel).executeLine node Arena.root machine) := by
  let lens := Lens.hosting id runner
  have through : Exec.Through lens (fun _ => True) _ _ _ _ := execute_line_through
    (RuleSet.through_engine lens fuel fuel (Nat.le_refl _) fun _ => rfl) node Arena.root
  have ended := Lens.through_ending through rfl trivial trivial machine core.fits
  rw [lens.node_sharp rfl, Lens.hosting_machine id runner held machine core] at ended
  have values : Option.map lens.value = fun value => value := funext fun value =>
    Lens.option_same lens.value value fun value _ => Lens.behind_value _ _ _ value
  rwa [values] at ended

theorem line_hosted_done (node : Node) (runner : Runner) (value : Option Value) (after : Machine)
    (done : (RuleSet.standard.engine fuel).executeLine node Arena.root machine = .done value after) :
    (RuleSet.standard.engine fuel).executeLine node Arena.root (machine.hosting id runner []) =
      .done value (after.hosting id runner []) := by
  have later := (core_line fuel held machine core node after (.inl ⟨value, done⟩)).1
  rw [line_hosted fuel held machine core, done, Lens.ending, Lens.hosting_machine id runner held after later]

theorem line_hosted_failed (node : Node) (runner : Runner) (failure : Failure) (after : Machine)
    (failed : (RuleSet.standard.engine fuel).executeLine node Arena.root machine = .failed failure after) :
    (RuleSet.standard.engine fuel).executeLine node Arena.root (machine.hosting id runner []) =
      .failed failure (after.hosting id runner []) := by
  have later := (core_line fuel held machine core node after (.inr ⟨failure, failed⟩)).1
  rw [line_hosted fuel held machine core, failed, Lens.ending, Lens.hosting_machine id runner held after later,
    (Lens.hosting id runner).failure_sharp rfl]

omit core in
theorem line_step_carrying (report : TickReport) (node : Node) (lines : List Node) (last : Option Value)
    (up : machine.halted = false) :
    (RuleSet.standard.engine fuel).lineStep report (machine.carrying id (node :: lines) last) = (do
      let value ← (RuleSet.standard.engine fuel).executeLine node Arena.root
      Exec.record id value
      Exec.advance id
      return .inl { report with lines := report.lines + 1 } : Exec (TickReport ⊕ TickReport))
        (machine.hosting id ⟨Arena.root, none, lines, last, false⟩ []) :=
  line_step_takes _ report (machine.hosting id ⟨Arena.root, none, lines, last, false⟩ []) ⟨node, id, Arena.root⟩ up rfl

theorem line_step_carried (report : TickReport) (node : Node) (lines : List Node) (last value : Option Value) (after : Machine)
    (up : machine.halted = false)
    (done : (RuleSet.standard.engine fuel).executeLine node Arena.root machine = .done value after) :
    (RuleSet.standard.engine fuel).lineStep report (machine.carrying id (node :: lines) last) =
      .done (.inl { report with lines := report.lines + 1 }) (after.carrying id lines (value.or last)) := by
  rw [line_step_carrying fuel machine id report node lines last up,
    Exec.bind_done _ _ _ _ _ (line_hosted_done fuel held machine core id node _ value after done),
    Exec.bind_done _ _ _ _ _ (Exec.record_hosted after id _ value),
    Exec.bind_done _ _ _ _ _ (Exec.advance_hosted after id lines (value.or last))]
  rfl

end Engine

-- Whether a line is an expression: any line but a statement is run for its value.
def Node.isExpression (node : Node) : Bool :=
  match node.head with
  | .statement _ _ => false
  | _ => true

namespace Engine
variable (fuel : Nat) (held : List FrameId) (machine : Machine) (core : machine.Core held) (id : RunnerId)

theorem expression_valued (node : Node) (expression : node.isExpression = true) (value : Option Value) (after : Machine)
    (done : (RuleSet.standard.engine fuel).executeLine node Arena.root machine = .done value after) : value.isSome = true := by
  obtain ⟨other, executed⟩ : ∃ other, (RuleSet.standard.engine fuel).execute node Arena.root machine = .done other after ∧
      other = value := by
    unfold executeLine Exec.mapFailure at done
    split at done <;> cases done
    exact ⟨_, ‹_›, rfl⟩
  obtain ⟨executed, rfl⟩ := executed
  cases fuel with
  | zero => cases executed
  | succ fuel =>
    have valued : RuleSet.standard.execute (RuleSet.standard.engine fuel) node Arena.root =
        some <$> RuleSet.standard.evaluate (RuleSet.standard.engine fuel) node Arena.root := by
      cases head : node.head with
      | statement keyword position =>
        rw [Node.isExpression, head] at expression
        cases expression
      | _ => simp only [RuleSet.execute, head]
    change RuleSet.standard.execute (RuleSet.standard.engine fuel) node Arena.root machine = _ at executed
    rw [valued] at executed
    obtain ⟨_, _, _, same⟩ := Exec.done_of_bind _ _ machine after other executed
    cases same
    rfl

include core

theorem line_hosted_ends (node : Node) (runner : Runner) (value : Option Value) (last : Machine)
    (done : (RuleSet.standard.engine fuel).executeLine node Arena.root (machine.hosting id runner []) = .done value last) :
    ∃ after, (RuleSet.standard.engine fuel).executeLine node Arena.root machine = .done value after ∧
      last = after.hosting id runner [] := by
  cases ran : (RuleSet.standard.engine fuel).executeLine node Arena.root machine with
  | done other after =>
    cases (line_hosted_done fuel held machine core id node runner other after ran).symm.trans done
    exact ⟨after, rfl, rfl⟩
  | failed failure after => cases (line_hosted_failed fuel held machine core id node runner failure after ran).symm.trans done
  | outOfFuel =>
    have hosted := line_hosted fuel held machine core id node runner
    rw [ran] at hosted
    cases hosted.symm.trans done

-- As far as the scheduler has run the lines of a program, following them comes, with as much fuel at least, to the
-- same machine.
theorem dispatched_followed (fewer : Nat) (less : fewer ≤ fuel) (lines : List Node) (ran : Ran) (reached : Machine)
    (dispatched : (RuleSet.standard.engine fewer).Dispatched (machine.carrying id lines none) ran reached) :
    ∃ left last middle, reached = middle.carrying id left last ∧ middle.Core held ∧
      (RuleSet.standard.engine fuel).follow lines machine = ((RuleSet.standard.engine fuel).follow left >>= fun result =>
        Pure.pure (result.1.or last, result.2) : Exec (Option Value × List Node)) middle ∧
      ((∃ entry ∈ ran, entry.1.node.isExpression = true) → last.isSome = true) := by
  induction dispatched with
  | begun =>
    refine ⟨lines, none, machine, rfl, core, ?_, fun ⟨entry, listed, _⟩ => absurd listed List.not_mem_nil⟩
    simp only [Bind.bind, Exec.bind, Option.or_none]
    cases (RuleSet.standard.engine fuel).follow lines machine <;> rfl
  | next ran queued middle recorded after line rest value _ up ready done noted moved ih =>
    obtain ⟨left, last, here, rfl, rests, follows, valued⟩ := ih
    cases left with
    | nil => cases ready
    | cons node left =>
      obtain ⟨rfl, rfl⟩ : line = ⟨node, id, Arena.root⟩ ∧ rest = [] := by
        cases ready
        exact ⟨rfl, rfl⟩
      -- The line is run again without the runner, and with the fuel that following it has.
      obtain ⟨later, ended, rfl⟩ := line_hosted_ends fewer held here rests id node ⟨Arena.root, none, left, last, false⟩ value
        middle done
      have through : Exec.Through .whole (fun _ => True) _ _ _ _ :=
        execute_line_through (RuleSet.through_engine .whole fewer fuel less False.elim) node Arena.root
      have again := Lens.more_fuel through (fun value => Lens.option_same _ value fun value _ => Lens.whole_value value) trivial
        here later rests.fits (.inl ⟨value, ended⟩)
      rw [Lens.whole.node_sharp rfl] at again
      cases noted.symm.trans (Exec.record_hosted later id _ value)
      cases moved.symm.trans (Exec.advance_hosted later id left (value.or last))
      refine ⟨left, value.or last, later, rfl, (core_line fewer held here rests node later (.inl ⟨value, ended⟩)).1, ?_, ?_⟩
      · rw [follows, Exec.bind_same _ _ _ _ _ (follow_cons _ node left here up), Exec.bind_assoc,
          Exec.bind_done _ _ _ _ _ (again.trans ended), Exec.bind_assoc]
        refine Exec.bind_next _ _ _ _ fun result after _ => ?_
        simp [Bind.bind, Exec.bind, Pure.pure, Exec.pure, Option.or_assoc]
      · rintro ⟨entry, listed, expression⟩
        rw [Option.isSome_or]
        rcases List.mem_append.mp listed with before | last
        · rw [valued ⟨entry, before, expression⟩, Bool.or_true]
        · obtain rfl := List.mem_singleton.mp last
          rw [expression_valued fewer here node expression value later ended, Bool.true_or]

end Engine

def TickReport.OnlyLines (report : TickReport) : Prop := report.microtasks = 0 ∧ report.events = 0 ∧ report.busy = false

-- What becomes of the lines of a program when the scheduler runs them, if the first outcome is what becomes of them
-- when they are followed.
inductive Outcome.Carried (id : RunnerId) (last : Option Value) :
    Outcome (Option Value × List Node) → Outcome TickReport → Prop where
  | done (value : Option Value) (left : List Node) (machine : Machine) (report : TickReport) (only : report.OnlyLines) :
      Carried id last (.done (value, left) machine) (.done report (machine.carrying id left (value.or last)))
  | failed (failure : Failure) (machine : Machine) (runner : Runner) (outermost : runner.frame = Arena.root) :
      Carried id last (.failed failure machine) (.failed failure (machine.hosting id runner []))
  | outOfFuel : Carried id last .outOfFuel .outOfFuel

theorem Engine.lines_carried (fuel : Nat) (held : List FrameId) (id : RunnerId) (lines : List Node) (machine : Machine)
    (core : machine.Core held) (last : Option Value) (report : TickReport) (only : report.OnlyLines) (rounds : Nat)
    (enough : lines.length < rounds) :
    ((RuleSet.standard.engine fuel).follow lines machine).Carried id last
      (Exec.iterate (RuleSet.standard.engine fuel).lineStep rounds report (machine.carrying id lines last)) := by
  obtain ⟨rounds, rfl⟩ : ∃ fewer, rounds = fewer + 1 := ⟨rounds - 1, by omega⟩
  -- Between two lines the machine carries the lines that are left, and only those.
  induction lines generalizing machine last report rounds with
  | nil =>
    rw [Exec.iterate_ended _ _ _ _ _ _ (line_step_idle _ report _ rfl)]
    exact .done none [] machine report only
  | cons node rest ih =>
    cases halted : machine.halted with
    | true =>
      have stopped := line_step_halted (RuleSet.standard.engine fuel) report (machine.carrying id (node :: rest) last) halted
      rw [Exec.iterate_ended _ _ _ _ _ _ stopped, follow_halted _ _ machine halted]
      exact .done none (node :: rest) machine report only
    | false =>
      rw [follow_cons _ node rest machine halted]
      cases ran : (RuleSet.standard.engine fuel).executeLine node Arena.root machine with
      | done value after =>
        have later := (core_line fuel held machine core node after (.inl ⟨value, ran⟩)).1
        rw [List.length_cons, Nat.add_lt_add_iff_right] at enough
        obtain ⟨rounds, rfl⟩ : ∃ fewer, rounds = fewer + 1 := ⟨rounds - 1, by omega⟩
        have stepped := line_step_carried fuel held machine core id report node rest last value after halted ran
        rw [Exec.iterate_again _ _ _ _ _ _ stepped, Exec.bind_done _ _ _ _ _ ran]
        have onward := ih after later (value.or last) { report with lines := report.lines + 1 } only rounds (by omega)
        generalize Exec.iterate _ (rounds + 1) _ _ = outcome at onward ⊢
        cases went : (RuleSet.standard.engine fuel).follow rest after with
        | done result finish =>
          rw [went] at onward
          rw [Exec.bind_done _ _ _ _ _ went]
          cases onward with
          | done further left _ report only =>
            rw [← Option.or_assoc]
            exact .done (further.or value) left finish report only
        | failed failure broken =>
          rw [went] at onward
          rw [Exec.bind_failed _ _ _ _ _ went]
          cases onward with
          | failed _ _ runner outermost => exact .failed failure broken runner outermost
        | outOfFuel =>
          rw [went] at onward
          rw [Exec.bind_exhausted _ _ _ went]
          cases onward
          exact .outOfFuel
      | failed failure after =>
        have step := (line_step_carrying fuel machine id report node rest last halted).trans
          (Exec.bind_failed _ _ _ _ _ (line_hosted_failed fuel held machine core id node _ failure after ran))
        rw [Exec.bind_failed _ _ _ _ _ ran, Exec.iterate, step]
        exact .failed failure after _ rfl
      | outOfFuel =>
        have hosted := line_hosted fuel held machine core id node ⟨Arena.root, none, rest, last, false⟩
        rw [ran] at hosted
        have step := (line_step_carrying fuel machine id report node rest last halted).trans (Exec.bind_exhausted _ _ _ hosted)
        rw [Exec.bind_exhausted _ _ _ ran, Exec.iterate, step]
        exact .outOfFuel

-- Nothing waits in the machine, unless it is lines that a halt has left.
structure Machine.Spent (machine : Machine) : Prop where
  stopped : machine.halted = true ∨ machine.ready = []
  microtasks : machine.microtasks = []
  events : machine.events = []

namespace Engine
variable (engine : Engine) (machine : Machine)

theorem later_tiers_spent (some_fuel : 0 < engine.fuel) (report : TickReport) (spent : machine.Spent) :
    engine.laterTiers report machine = .done report machine := by
  obtain ⟨fuel, more⟩ : ∃ fuel, engine.fuel = fuel + 1 := ⟨engine.fuel - 1, by omega⟩
  have drained : engine.drainMicrotasks report machine = .done report machine := by
    unfold drainMicrotasks
    rw [more]
    refine Exec.iterate_ended _ fuel report report machine machine ?_
    unfold drainStep
    rw [Exec.read_then, spent.microtasks]
    rfl
  have skips (phase : TickReport → Exec TickReport) (same : phase report machine = .done report machine) :
      unlessHalted phase report machine = .done report machine := by
    unfold unlessHalted
    rw [Exec.halted_then]
    cases machine.halted <;> simp [same, Pure.pure, Exec.pure]
  unfold laterTiers
  rw [Exec.bind_done _ _ _ _ _ (skips _ drained)]
  exact skips _ (engine.serve_none report machine spent.events)

theorem tick_spent (some_fuel : 0 < engine.fuel) (spent : machine.Spent) : engine.tick machine = .done .empty machine := by
  obtain ⟨fuel, more⟩ : ∃ fuel, engine.fuel = fuel + 1 := ⟨engine.fuel - 1, by omega⟩
  have step : engine.lineStep .empty machine = .done (.inr .empty) machine := by
    rcases spent.stopped with halted | ready
    · exact engine.line_step_halted .empty machine halted
    · exact engine.line_step_idle .empty machine ready
  rw [tick_parts, run_lines_rounds, more]
  exact (Exec.bind_done _ _ _ _ _ (Exec.iterate_ended _ fuel _ _ _ _ step)).trans
    (engine.later_tiers_spent machine some_fuel .empty spent)

theorem rounds_spent (some_fuel : 0 < engine.fuel) (spent : machine.Spent) (fuel idle : Nat) (patience : 0 < fuel)
    (enough : machine.config.idleLimit ≤ idle + fuel) : Exec.iterate engine.runStep fuel idle machine = .done () machine := by
  have step (idle : Nat) : engine.runStep idle machine =
      .done (if machine.halted ∨ machine.config.idleLimit ≤ idle + 1 then .inr () else .inl (idle + 1)) machine := by
    rw [run_step_parts, Exec.bind_done _ _ _ _ _ (engine.tick_spent machine some_fuel spent)]
    unfold endRound
    rw [Exec.halted_then]
    cases machine.halted with
    | true => rfl
    | false =>
      show (Exec.read (·.config.idleLimit) >>= _) machine = _
      rw [Exec.read_then]
      by_cases patient : machine.config.idleLimit ≤ idle + 1 <;> simp [patient, Pure.pure, Exec.pure]
  -- Each tick is an idle one, so the count of them comes to the limit.
  induction fuel generalizing idle with
  | zero => omega
  | succ fuel ih =>
    have here := step idle
    split at here
    next => exact Exec.iterate_ended _ fuel _ _ _ _ here
    next going =>
      rw [not_or] at going
      rw [Exec.iterate_again _ _ _ _ _ _ here]
      exact ih (idle + 1) (by omega) (by omega)

theorem after_lines_spent (some_fuel : 0 < engine.fuel) (spent : machine.Spent) (report : TickReport) (only : report.OnlyLines)
    (fuel : Nat) (enough : machine.config.idleLimit < fuel) : engine.afterLines fuel report machine = .done () machine := by
  obtain ⟨lines, microtasks, events, busy⟩ := report
  obtain ⟨rfl, rfl, rfl⟩ := only
  unfold afterLines
  rw [Exec.bind_done _ _ _ _ _ (engine.later_tiers_spent machine some_fuel _ spent)]
  obtain ⟨result, done⟩ : ∃ result, endRound 0 ⟨lines, 0, 0, false⟩ machine = .done result machine := by
    unfold endRound
    rw [Exec.halted_then]
    cases machine.halted with
    | true => exact ⟨.inr (), rfl⟩
    | false =>
      by_cases idle : lines = 0
      · subst idle
        show ∃ result, (Exec.read (·.config.idleLimit) >>= _) machine = .done result machine
        rw [Exec.read_then]
        split
        · exact ⟨.inr (), rfl⟩
        · exact ⟨.inl 1, rfl⟩
      · exact ⟨.inl 0, by simp [TickReport.isOnlyWaiting, TickReport.isIdle, idle, Pure.pure, Exec.pure]⟩
  rw [Exec.bind_done _ _ _ _ _ done]
  cases result with
  | inl idle => exact engine.rounds_spent machine some_fuel spent fuel idle (by omega) (by omega)
  | inr ended => rfl

end Engine

end CoopScript
