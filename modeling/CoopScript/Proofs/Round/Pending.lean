import CoopScript.Interpreter
import CoopScript.Proofs.Round.Report

set_option autoImplicit false
namespace CoopScript

-- No line and no microtask waits.
structure Machine.Drained (machine : Machine) : Prop where
  ready : machine.ready = []
  microtasks : machine.microtasks = []

namespace Engine
variable (engine : Engine)

-- Where a run gets between two ticks, with the count of idle ticks.
inductive Ticks : Nat → Machine → Nat → Machine → Prop where
  | none (idle : Nat) (machine : Machine) : Ticks idle machine idle machine
  | more (idle next last : Nat) (machine middle after : Machine)
      (ticked : engine.runStep idle machine = .done (.inl next) middle) (further : Ticks next middle last after) :
      Ticks idle machine last after

-- Servicing these events comes to run the event on the machine `taken`, from which it has been taken out.
inductive Asks : List EventId → Machine → Microevent → Machine → Prop where
  | here (id : EventId) (rest : List EventId) (machine : Machine) (event : Microevent) (taken : Machine)
      (found : machine.event? id = some event) (out : Exec.setEvent id none machine = .done () taken) :
      Asks (id :: rest) machine event taken
  | gone (id : EventId) (rest : List EventId) (machine : Machine) (event : Microevent) (taken : Machine)
      (unknown : machine.event? id = none) (further : Asks rest machine event taken) : Asks (id :: rest) machine event taken
  | later (id : EventId) (rest : List EventId) (machine middle : Machine) (first event : Microevent) (taken : Machine)
      (status : EventStatus) (found : machine.event? id = some first)
      (served : engine.serviceEvent id first machine = .done status middle) (running : middle.halted = false)
      (further : Asks rest middle event taken) : Asks (id :: rest) machine event taken

-- A tick comes to run the event on the machine `taken`.
inductive TickAsks (machine : Machine) (event : Microevent) (taken : Machine) : Prop where
  | mk (lined drained : TickReport) (ran left : Machine) (lines : engine.runLines .empty machine = .done lined ran)
      (running : ran.halted = false) (drains : engine.drainMicrotasks lined ran = .done drained left)
      (still : left.halted = false) (asks : engine.Asks (left.events.map Prod.fst) left event taken)

theorem run_ticks (fuel idle : Nat) (machine after : Machine)
    (done : Exec.iterate engine.runStep fuel idle machine = .done () after) :
    ∃ last before, engine.Ticks idle machine last before ∧ engine.runStep last before = .done (.inr ()) after := by
  induction fuel generalizing idle machine with
  | zero => cases done
  | succ fuel ih =>
    unfold Exec.iterate at done
    cases ran : engine.runStep idle machine with
    | failed | outOfFuel =>
      rw [ran] at done
      cases done
    | done result middle =>
      rw [ran] at done
      cases result with
      | inl next =>
        obtain ⟨last, before, ticks, ended⟩ := ih next middle done
        exact ⟨last, before, .more idle next last machine middle before ran ticks, ended⟩
      | inr =>
        cases done
        exact ⟨idle, machine, .none idle machine, ran⟩

theorem service_event_done (id : EventId) (event : Microevent) (machine after : Machine) (status : EventStatus)
    (done : engine.serviceEvent id event machine = .done status after) :
    ∃ taken left, Exec.setEvent id none machine = .done () taken ∧ engine.runEvent event taken = .done status left ∧
      (left.Drained → after.Drained) := by
  unfold serviceEvent at done
  obtain ⟨taken, _, out, rest⟩ := Exec.done_of_bind _ _ machine after status done
  obtain ⟨left, outcome, tried, last⟩ := Exec.done_of_bind _ _ taken after status rest
  cases ran : engine.runEvent event taken with
  | outOfFuel =>
    simp only [Exec.attempt, ran] at tried
    cases tried
  | failed failure middle =>
    simp only [Exec.attempt, ran] at tried
    cases tried
    cases last
  | done value middle =>
    simp only [Exec.attempt, ran] at tried
    cases tried
    refine ⟨taken, left, out, ?_, ?_⟩
    · cases value <;> cases last <;> exact ran
    · cases value <;> cases last <;> exact fun drained => ⟨drained.ready, drained.microtasks⟩

theorem service_idle_before (ids : List EventId) (report whole : TickReport) (machine after : Machine)
    (done : engine.serviceAll ids report machine = .done whole after) (idle : whole.isIdle = true) : report.isIdle = true := by
  induction ids generalizing report machine with
  | nil =>
    cases done
    exact idle
  | cons id rest ih =>
    rcases engine.service_all_cons id rest report whole machine after done with
      ⟨_, later⟩ | ⟨_, status, middle, _, _, ⟨_, rfl, _⟩ | ⟨_, later⟩⟩
    · exact ih report machine later
    · exact (report.idle_noted status idle).1
    · exact (report.idle_noted status (ih _ middle later)).1

-- Where nothing waits and no event makes progress, something waits afterwards only if an event that is done has left
-- it.
theorem service_drained (ids : List EventId) (report whole : TickReport) (machine after : Machine)
    (done : engine.serviceAll ids report machine = .done whole after) (idle : whole.isIdle = true)
    (drained : machine.Drained)
    (candid : ∀ event taken left, engine.Asks ids machine event taken → engine.runEvent event taken = .done .idle left →
      taken.Drained → left.Drained) :
    after.Drained ∨ ∃ event taken left, engine.Asks ids machine event taken ∧
      engine.runEvent event taken = .done .done left ∧ taken.Drained ∧ ¬ left.Drained := by
  induction ids generalizing report machine with
  | nil =>
    cases done
    exact .inl drained
  | cons id rest ih =>
    rcases engine.service_all_cons id rest report whole machine after done with
      ⟨unknown, later⟩ | ⟨event, status, middle, found, served, further⟩
    · rcases ih report machine later drained fun event taken left asks =>
        candid event taken left (.gone id rest machine event taken unknown asks) with well | ⟨event, taken, left, asks, others⟩
      · exact .inl well
      · exact .inr ⟨event, taken, left, .gone id rest machine event taken unknown asks, others⟩
    · obtain ⟨taken, left, out, ran, put⟩ := engine.service_event_done id event machine middle status served
      have asked : engine.Asks (id :: rest) machine event taken := .here id rest machine event taken found out
      have takenDrained : taken.Drained := by
        cases out
        exact ⟨drained.ready, drained.microtasks⟩
      have noted : (report.note status).isIdle = true := by
        rcases further with ⟨_, rfl, _⟩ | ⟨_, later⟩
        · exact idle
        · exact engine.service_idle_before rest _ whole middle after later idle
      by_cases leftDrained : left.Drained
      · rcases further with ⟨_, _, rfl⟩ | ⟨running, later⟩
        · exact .inl (put leftDrained)
        · rcases ih _ middle later (put leftDrained) fun other taken left asks =>
            candid other taken left (.later id rest machine middle event other taken status found served running asks)
            with well | ⟨other, taken, left, asks, others⟩
          · exact .inl well
          · exact .inr ⟨other, taken, left, .later id rest machine middle event other taken status found served running asks,
              others⟩
      · obtain ⟨_, notBusy, notProgress⟩ := report.idle_noted status noted
        cases status with
        | idle => exact absurd (candid event taken left asked ran takenDrained) leftDrained
        | done => exact .inr ⟨event, taken, left, asked, ran, takenDrained, leftDrained⟩
        | busy => exact absurd rfl notBusy
        | progress => exact absurd rfl notProgress

end Engine

/-- When a run ends without a halt, neither a line nor a microtask waits, unless an event that queued something in the last
tick said that it was done. Events say that they are idle or busy only when they queued nothing. -/
theorem run_leaves_nothing (engine : Engine) (start after : Machine)
    (candid : ∀ idle machine event taken status left, engine.Ticks 0 start idle machine →
      engine.TickAsks machine event taken → engine.runEvent event taken = .done status left →
      status = .idle ∨ status = .busy → taken.Drained → left.Drained)
    (done : engine.run start = .done () after) (running : after.halted = false) :
    after.Drained ∨ ∃ idle last event taken left, engine.Ticks 0 start idle last ∧
      engine.runStep idle last = .done (.inr ()) after ∧ engine.TickAsks last event taken ∧
      engine.runEvent event taken = .done .done left ∧ taken.Drained ∧ ¬ left.Drained := by
  rw [Engine.run_rounds] at done
  obtain ⟨idle, last, ticks, ended⟩ := engine.run_ticks engine.fuel 0 start after done
  obtain ⟨report, ticked, isIdle⟩ := engine.run_step_ended idle last after ended running
  obtain ⟨noLines, noTasks, lastRunning, lines, drains, serves⟩ := engine.idle_tick_asks report last after ticked isIdle running
  have asked : ∀ event taken, engine.Asks (last.events.map Prod.fst) last event taken → engine.TickAsks last event taken :=
    fun event taken asks => .mk .empty .empty last last lines lastRunning drains lastRunning asks
  rcases engine.service_drained _ .empty report last after serves isIdle ⟨noLines, noTasks⟩ fun event taken left asks ran =>
      candid idle last event taken .idle left ticks (asked event taken asks) ran (.inl rfl)
    with well | ⟨event, taken, left, asks, ran, before, behind⟩
  · exact .inl well
  · exact .inr ⟨idle, last, event, taken, left, ticks, ended, asked event taken asks, ran, before, behind⟩

-- The event queues a microtask first, and is idle from then on.
theorem run_leaves_nothing_late :
    let engine := RuleSet.standard.engine 9
    ∃ start after, Exec.registerEvent (.host [.mk [.enqueueMicrotask [.mark "late"]] .progress, .mk [] .idle] 0)
        (Machine.start { Config.standard with idleLimit := 1 }) = .done ⟨1⟩ start ∧
      engine.run start = .done () after ∧ after.output = #["late"] ∧ after.halted = false ∧ after.Drained := by
  intro engine
  let turns : List Turn := [.mk [.enqueueMicrotask [.mark "late"]] .progress, .mk [] .idle]
  have candid : ∀ place taken status left, engine.runEvent (.host turns place) taken = .done status left →
      status ≠ .done ∧ (status = .idle ∨ status = .busy → taken.Drained → left.Drained) := by
    intro place taken status left ran
    match place with
    | 0 =>
      cases ran
      exact ⟨nofun, fun quiet => by rcases quiet with same | same <;> cases same⟩
    | place + 1 =>
      have idle : Microevent.turn turns (place + 1) = .mk [] .idle := by cases place <;> rfl
      have same : engine.runEvent (.host turns (place + 1)) taken = .done .idle taken := by
        simp only [Engine.runEvent, idle]
        rfl
      cases same.symm.trans ran
      exact ⟨nofun, fun _ drained => drained⟩
  let waiting (place : Nat) (tasks : List Microtask) (output : Array String) : Machine :=
    { Machine.start { Config.standard with idleLimit := 1 } with
      eventCount := 1, events := [(⟨1⟩, some (.host turns place))], microtasks := tasks, output := output }
  have first : engine.runStep 0 (waiting 0 [] #[]) = .done (.inl 0) (waiting 1 [.host [.mark "late"]] #[]) := rfl
  have second : engine.runStep 0 (waiting 1 [.host [.mark "late"]] #[]) = .done (.inl 0) (waiting 2 [] #["late"]) := rfl
  have third : engine.runStep 0 (waiting 2 [] #["late"]) = .done (.inr ()) (waiting 3 [] #["late"]) := rfl
  have done : engine.run (waiting 0 [] #[]) = .done () (waiting 3 [] #["late"]) := rfl
  have asked : ∀ place tasks output tasksLeft outputLeft report event taken,
      engine.drainMicrotasks .empty (waiting place tasks output) = .done report (waiting place tasksLeft outputLeft) →
      engine.TickAsks (waiting place tasks output) event taken → event = .host turns place := by
    intro place tasks output tasksLeft outputLeft report event taken drained tickAsks
    obtain ⟨lined, _, ran, left, lines, _, drains, _, asks⟩ := tickAsks
    cases lines
    cases drained.symm.trans drains
    cases asks with
    | here _ _ _ _ _ found _ =>
      cases found
      rfl
    | gone _ _ _ _ _ unknown => cases unknown
    | later _ _ _ _ _ _ _ _ _ _ _ further => cases further
  have own : ∀ idle machine event taken, engine.Ticks 0 (waiting 0 [] #[]) idle machine →
      engine.TickAsks machine event taken → ∃ place, event = .host turns place := by
    intro idle machine event taken ticks asks
    cases ticks with
    | none => exact ⟨0, asked 0 [] #[] [] #[] _ event taken rfl asks⟩
    | more _ _ _ _ _ _ ticked ticks =>
      cases first.symm.trans ticked
      cases ticks with
      | none => exact ⟨1, asked 1 _ #[] [] #["late"] _ event taken rfl asks⟩
      | more _ _ _ _ _ _ ticked ticks =>
        cases second.symm.trans ticked
        cases ticks with
        | none => exact ⟨2, asked 2 [] _ [] _ _ event taken rfl asks⟩
        | more _ _ _ _ _ _ ticked _ => cases third.symm.trans ticked
  refine ⟨waiting 0 [] #[], waiting 3 [] #["late"], rfl, done, rfl, rfl, ?_⟩
  rcases run_leaves_nothing engine (waiting 0 [] #[]) (waiting 3 [] #["late"])
    (fun idle machine event taken status left ticks asks ran => by
      obtain ⟨place, rfl⟩ := own idle machine event taken ticks asks
      exact (candid place taken status left ran).2) done rfl
    with well | ⟨idle, last, event, taken, left, ticks, _, asks, ran, _⟩
  · exact well
  · obtain ⟨place, rfl⟩ := own idle last event taken ticks asks
    exact absurd rfl (candid place taken .done left ran).1

-- An event may queue a microtask and say in the same breath that it is done.
theorem done_leaves_work :
    let engine := RuleSet.standard.engine 9
    ∃ start after, Exec.registerEvent (.host [.mk [.enqueueMicrotask [.mark "late"]] .done] 0)
        (Machine.start { Config.standard with idleLimit := 1 }) = .done ⟨1⟩ start ∧
      (∀ idle machine event taken status left, engine.Ticks 0 start idle machine →
        engine.TickAsks machine event taken → engine.runEvent event taken = .done status left →
        status ≠ .idle ∧ status ≠ .busy) ∧
      engine.run start = .done () after ∧ after.halted = false ∧ ¬ after.Drained := by
  intro engine
  refine ⟨_, _, rfl, ?_, rfl, rfl, ?_⟩
  · intro idle machine event taken status left ticks tickAsks ran
    have reached : machine = { Machine.start { Config.standard with idleLimit := 1 } with
        eventCount := 1
        events := [(⟨1⟩, some (.host [.mk [.enqueueMicrotask [.mark "late"]] .done] 0))] } := by
      cases ticks with
      | none => rfl
      | more _ next _ _ middle _ ticked _ => cases ticked
    subst reached
    obtain ⟨lined, drained, ran, stays, lines, _, drains, _, asks⟩ := tickAsks
    cases lines
    cases drains
    cases asks with
    | here id rest machine event taken found out =>
      cases found
      cases out
      cases ran
      exact ⟨nofun, nofun⟩
    | gone _ _ _ _ _ unknown => cases unknown
    | later _ _ _ _ _ _ _ _ _ _ _ further => cases further
  · rintro ⟨_, none⟩
    cases none

end CoopScript
