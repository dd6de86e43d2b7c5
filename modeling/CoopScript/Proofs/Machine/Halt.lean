import CoopScript.Interpreter
import CoopScript.Proofs.Machine.Round

set_option autoImplicit false
namespace CoopScript

-- What the loops of the scheduler begin.
structure Tiers where
  line : Node → FrameId → Exec (Option Value)
  microtask : Microtask → Exec Unit
  event : EventId → Microevent → Exec EventStatus

def Engine.tiers (engine : Engine) : Tiers := ⟨engine.executeLine, engine.runMicrotask, engine.serviceEvent⟩

namespace Tiers
variable (tiers : Tiers) (fuel : Nat)

def lineStep (report : TickReport) : Exec (TickReport ⊕ TickReport) := do
  match ← Exec.read (·.ready) with
  | [] => return .inr report
  | line :: rest =>
    if ← Exec.isHalted then return .inr report
    Exec.modify fun machine => { machine with ready := rest }
    let value ← tiers.line line.node line.frame
    Exec.record line.runner value
    Exec.advance line.runner
    return .inl { report with lines := report.lines + 1 }

def drainStep (report : TickReport) : Exec (TickReport ⊕ TickReport) := do
  match ← Exec.read (·.microtasks) with
  | [] => return .inr report
  | task :: rest =>
    Exec.modify fun machine => { machine with microtasks := rest }
    let report := { report with microtasks := report.microtasks + 1 }
    tiers.microtask task
    if ← Exec.isHalted then return .inr report
    return .inl report

def drain (report : TickReport) : Exec TickReport := Exec.iterate tiers.drainStep fuel report

def serviceAll : List EventId → TickReport → Exec TickReport
  | [], report => pure report
  | id :: rest, report => do
    match ← Exec.read (·.event? id) with
    | none => serviceAll rest report
    | some event =>
      let report := report.note (← tiers.event id event)
      if ← Exec.isHalted then return report
      serviceAll rest report

def serviceEvents (report : TickReport) : Exec TickReport := do
  let ids ← Exec.read fun machine => machine.events.map Prod.fst
  tiers.serviceAll ids report

def tick : Exec TickReport := do
  let report ← Exec.iterate tiers.lineStep fuel .empty
  let report ← Engine.unlessHalted (tiers.drain fuel) report
  Engine.unlessHalted tiers.serviceEvents report

def runStep (idle : Nat) : Exec (Nat ⊕ Unit) := do
  let report ← tiers.tick fuel
  if ← Exec.isHalted then return .inr ()
  if report.isOnlyWaiting then Exec.wait
  if !report.isIdle then return .inl 0
  if (← Exec.read (·.config.idleLimit)) ≤ idle + 1 then return .inr ()
  return .inl (idle + 1)

def run : Exec Unit := Exec.iterate (tiers.runStep fuel) fuel 0

def blockStep (id : RunnerId) : Exec (Unit ⊕ Unit) := do
  if (← Exec.isHalted) || (← Exec.read (·.runnerReturned id)) then return .inr ()
  match ← Exec.read (·.runner? id) with
  | none => return .inr ()
  | some runner =>
    match runner.lines with
    | [] =>
      Exec.modify (·.updateRunner id fun runner => { runner with finished := true })
      return .inr ()
    | node :: rest =>
      Exec.modify (·.updateRunner id fun runner => { runner with lines := rest })
      let value ← tiers.line node runner.frame
      Exec.record id value
      return .inl ()

def runBlock (lines : List Node) (frame : FrameId) : Exec (Option Value) := do
  let id ← Exec.createRunner lines frame
  let outcome ← (Exec.iterate (fun _ => tiers.blockStep id) fuel ()).attempt
  let last ← Exec.finishRunner id
  Exec.ofOutcome outcome
  return last

-- Events as they are asked right after a microtask has halted the machine: `late` is what the first of them does.
def serveLate (late : EventId → Microevent → Exec EventStatus) : List EventId → TickReport → Exec TickReport
  | [], report => pure report
  | id :: rest, report => do
    match ← Exec.read (·.event? id) with
    | none => serveLate late rest report
    | some event =>
      let report := report.note (← late id event)
      if ← Exec.isHalted then return report
      tiers.serviceAll rest report

def serviceAfter (late : EventId → Microevent → Exec EventStatus) (report : TickReport) : Exec TickReport := do
  if ← Exec.isHalted then
    let ids ← Exec.read fun machine => machine.events.map Prod.fst
    tiers.serveLate late ids report
  else tiers.serviceEvents report

def awaitStep (late : EventId → Microevent → Exec EventStatus) (task : TaskId) (idle : Nat) :
    Exec (Nat ⊕ Value) := do
  match ← Exec.consumeTask task with
  | some value => return .inr value
  | none =>
    if ← Exec.isHalted then Exec.fail .interrupted
    let report ← tiers.drain fuel .empty
    let report ← tiers.serviceAfter late report
    if report.isOnlyWaiting then Exec.wait
    if !report.isIdle then return .inl 0
    if (← Exec.read (·.config.idleLimit)) < idle + 1 then Exec.fail .neverSettled
    return .inl (idle + 1)

def await (late : EventId → Microevent → Exec EventStatus) (task : TaskId) : Exec Value :=
  Exec.iterate (tiers.awaitStep fuel late task) fuel 0

-- The same on every machine that is not halted.
structure Alike (first second : Tiers) : Prop where
  line : ∀ node frame machine, machine.halted = false → first.line node frame machine = second.line node frame machine
  microtask : ∀ task machine, machine.halted = false → first.microtask task machine = second.microtask task machine
  event : ∀ id event machine, machine.halted = false → first.event id event machine = second.event id event machine

section Alike
variable (first second : Tiers) (alike : first.Alike second)
include alike

theorem line_step_alike (report : TickReport) : first.lineStep report = second.lineStep report := by
  funext machine
  unfold lineStep
  rw [Exec.read_then, Exec.read_then]
  cases machine.ready with
  | nil => rfl
  | cons line rest =>
    simp only [Exec.halted_then]
    cases halted : machine.halted with
    | true => rfl
    | false =>
      exact Exec.bind_same _ _ _ _ _ (alike.line line.node line.frame { machine with ready := rest } halted)

theorem drain_step_alike (report : TickReport) (machine : Machine) (running : machine.halted = false) :
    first.drainStep report machine = second.drainStep report machine := by
  unfold drainStep
  rw [Exec.read_then, Exec.read_then]
  cases machine.microtasks with
  | nil => rfl
  | cons task rest =>
    exact Exec.bind_same _ _ _ _ _ (alike.microtask task { machine with microtasks := rest } running)

omit alike in
-- Another microtask comes up only on a machine that is not halted.
theorem drain_step_running (report next : TickReport) (machine after : Machine)
    (more : first.drainStep report machine = .done (.inl next) after) : after.halted = false := by
  unfold drainStep at more
  rw [Exec.read_then] at more
  cases queue : machine.microtasks with
  | nil =>
    rw [queue] at more
    cases more
  | cons task rest =>
    rw [queue] at more
    obtain ⟨ran, _, _, decided⟩ := Exec.done_of_bind _ _ { machine with microtasks := rest } _ _ more
    rw [Exec.halted_then] at decided
    cases halted : ran.halted with
    | true =>
      rw [halted, if_pos rfl] at decided
      cases decided
    | false =>
      rw [halted, if_neg Bool.false_ne_true] at decided
      cases decided
      exact halted

theorem drain_alike (fuel : Nat) (report : TickReport) (machine : Machine) (running : machine.halted = false) :
    first.drain fuel report machine = second.drain fuel report machine :=
  Exec.iterate_same _ _ (fun machine => machine.halted = false) (first.drain_step_alike second alike)
    (fun report machine next after _ more => first.drain_step_running report next machine after more)
    fuel report machine running

theorem service_all_alike (ids : List EventId) (report : TickReport) (machine : Machine)
    (running : machine.halted = false) :
    first.serviceAll ids report machine = second.serviceAll ids report machine := by
  induction ids generalizing report machine with
  | nil => rfl
  | cons id rest ih =>
    unfold serviceAll
    rw [Exec.read_then, Exec.read_then]
    cases machine.event? id with
    | none => exact ih report machine running
    | some event =>
      have same := alike.event id event machine running
      simp only
      cases ran : first.event id event machine with
      | failed failure after =>
        rw [Exec.bind_failed _ _ _ _ _ ran, Exec.bind_failed _ _ _ _ _ (same.symm.trans ran)]
      | outOfFuel => rw [Exec.bind_exhausted _ _ _ ran, Exec.bind_exhausted _ _ _ (same.symm.trans ran)]
      | done status after =>
        rw [Exec.bind_done _ _ _ _ _ ran, Exec.bind_done _ _ _ _ _ (same.symm.trans ran), Exec.halted_then,
          Exec.halted_then]
        cases halted : after.halted with
        | true => rfl
        | false => exact ih _ after halted

theorem service_events_alike (report : TickReport) (machine : Machine) (running : machine.halted = false) :
    first.serviceEvents report machine = second.serviceEvents report machine :=
  first.service_all_alike second alike _ report machine running

omit alike in
theorem unless_halted_alike (phase other : TickReport → Exec TickReport)
    (same : ∀ report machine, machine.halted = false → phase report machine = other report machine) :
    Engine.unlessHalted phase = Engine.unlessHalted other := by
  funext report machine
  unfold Engine.unlessHalted
  rw [Exec.halted_then, Exec.halted_then]
  cases halted : machine.halted with
  | true => rfl
  | false => exact same report machine halted

theorem tick_alike (fuel : Nat) : first.tick fuel = second.tick fuel := by
  have lines : first.lineStep = second.lineStep := funext (first.line_step_alike second alike)
  unfold tick
  rw [lines, unless_halted_alike _ _ (first.drain_alike second alike fuel),
    unless_halted_alike _ _ (first.service_events_alike second alike)]

theorem run_alike (fuel : Nat) : first.run fuel = second.run fuel := by
  unfold run runStep
  rw [first.tick_alike second alike fuel]

theorem block_step_alike (id : RunnerId) : first.blockStep id = second.blockStep id := by
  funext machine
  unfold blockStep
  rw [Exec.halted_then, Exec.halted_then]
  cases halted : machine.halted with
  | true => rfl
  | false =>
    rw [Exec.read_then, Exec.read_then]
    cases machine.runnerReturned id with
    | true => rfl
    | false =>
      simp only [Bool.or_self, Bool.false_eq_true, if_false]
      rw [Exec.read_then, Exec.read_then]
      cases machine.runner? id with
      | none => rfl
      | some runner =>
        cases lines : runner.lines with
        | nil => simp only [lines]
        | cons node rest =>
          simp only [lines, Exec.modify_then]
          exact Exec.bind_same _ _ _ _ _ (alike.line node runner.frame _ halted)

theorem run_block_alike (fuel : Nat) (lines : List Node) (frame : FrameId) :
    first.runBlock fuel lines frame = second.runBlock fuel lines frame := by
  unfold runBlock
  simp only [first.block_step_alike second alike]

theorem serve_late_alike (late : EventId → Microevent → Exec EventStatus) (ids : List EventId)
    (report : TickReport) : first.serveLate late ids report = second.serveLate late ids report := by
  funext machine
  induction ids generalizing report machine with
  | nil => rfl
  | cons id rest ih =>
    unfold serveLate
    rw [Exec.read_then, Exec.read_then]
    cases machine.event? id with
    | none => exact ih report machine
    | some event =>
      simp only
      cases ran : late id event machine with
      | failed failure after => rw [Exec.bind_failed _ _ _ _ _ ran, Exec.bind_failed _ _ _ _ _ ran]
      | outOfFuel => rw [Exec.bind_exhausted _ _ _ ran, Exec.bind_exhausted _ _ _ ran]
      | done status after =>
        rw [Exec.bind_done _ _ _ _ _ ran, Exec.bind_done _ _ _ _ _ ran, Exec.halted_then, Exec.halted_then]
        cases halted : after.halted with
        | true => rfl
        | false => exact first.service_all_alike second alike rest _ after halted

theorem service_after_alike (late : EventId → Microevent → Exec EventStatus) (report : TickReport) :
    first.serviceAfter late report = second.serviceAfter late report := by
  funext machine
  unfold serviceAfter
  rw [Exec.halted_then, Exec.halted_then]
  cases halted : machine.halted with
  | true => simp only [if_true, first.serve_late_alike second alike late]
  | false => exact first.service_events_alike second alike report machine halted

theorem await_step_alike (late : EventId → Microevent → Exec EventStatus) (fuel : Nat) (task : TaskId) (idle : Nat) :
    first.awaitStep fuel late task idle = second.awaitStep fuel late task idle := by
  funext machine
  unfold awaitStep
  refine Exec.bind_next _ _ _ machine fun value middle _ => ?_
  cases value with
  | some value => rfl
  | none =>
    simp only [Exec.halted_then]
    cases halted : middle.halted with
    | true => rfl
    | false =>
      simp only [Bool.false_eq_true, if_false, first.service_after_alike second alike late]
      exact Exec.bind_same _ _ _ _ _ (first.drain_alike second alike fuel .empty middle halted)

theorem await_alike (late : EventId → Microevent → Exec EventStatus) (fuel : Nat) (task : TaskId) :
    first.await fuel late task = second.await fuel late task := by
  unfold await
  rw [funext (first.await_step_alike second alike late fuel task)]

end Alike

end Tiers

namespace Engine
variable (engine : Engine)

theorem service_all_begins (ids : List EventId) (report : TickReport) :
    engine.serviceAll ids report = engine.tiers.serviceAll ids report := by
  induction ids generalizing report with
  | nil => rfl
  | cons id rest ih =>
    unfold serviceAll Tiers.serviceAll
    rewrite [← funext ih]
    congr 1

theorem serve_late_begins (ids : List EventId) (report : TickReport) :
    engine.serviceAll ids report = engine.tiers.serveLate engine.serviceEvent ids report := by
  induction ids generalizing report with
  | nil => rfl
  | cons id rest ih =>
    have later : engine.serviceAll rest = engine.tiers.serviceAll rest := funext (engine.service_all_begins rest)
    unfold serviceAll Tiers.serveLate
    rewrite [← later, ← funext ih]
    congr 1

theorem service_events_begins : engine.serviceEvents = engine.tiers.serviceEvents := by
  funext report
  unfold serviceEvents Tiers.serviceEvents
  simp only [service_all_begins]

theorem service_after_begins : engine.serviceEvents = engine.tiers.serviceAfter engine.serviceEvent := by
  funext report machine
  unfold Tiers.serviceAfter
  rw [Exec.halted_then]
  cases machine.halted with
  | true =>
    unfold serviceEvents
    simp only [serve_late_begins, if_true]
  | false => rw [service_events_begins, if_neg Bool.false_ne_true]

theorem tick_begins : engine.tick = engine.tiers.tick engine.fuel := by
  unfold tick
  rw [service_events_begins]
  rfl

theorem run_begins : engine.run = engine.tiers.run engine.fuel := by
  rw [run_rounds]
  unfold runStep
  rw [tick_begins]
  rfl

theorem run_block_begins : engine.runBlock = engine.tiers.runBlock engine.fuel := rfl

theorem await_begins (task : TaskId) : engine.await task = engine.tiers.await engine.fuel engine.serviceEvent task := by
  unfold await awaitStep
  rw [service_after_begins]
  rfl

/-- Nothing is begun while the machine is halted: only what lines, microtasks and events do on machines that are
not halted matters. Waiting is the exception. A microtask that it runs may halt the machine, and then one more
event is run all the same. -/
structure BeginsNothing (engine : Engine) (tiers : Tiers) : Prop where
  tick : engine.tick = tiers.tick engine.fuel
  run : engine.run = tiers.run engine.fuel
  block : engine.runBlock = tiers.runBlock engine.fuel
  await : ∀ task, engine.await task = tiers.await engine.fuel engine.serviceEvent task

-- What was begun before the machine was halted is finished, and then the loop is over.
structure FinishesBegun (engine : Engine) : Prop where
  tick : ∀ machine, machine.halted = true → engine.tick machine = .done .empty machine
  run : ∀ machine, machine.halted = true → engine.run machine = .done () machine
  drive : ∀ id machine, machine.halted = true → engine.drive id machine = .done () machine
  line : ∀ line rest report value machine ran, machine.halted = false → machine.ready = line :: rest →
    engine.executeLine line.node line.frame { machine with ready := rest } = .done value ran → ran.halted = true →
    ∃ after, (do Exec.record line.runner value; Exec.advance line.runner) ran = .done () after ∧
      engine.runLines report machine = .done { report with lines := report.lines + 1 } after
  blockLine : ∀ id runner node rest value machine ran, machine.halted = false → machine.runnerReturned id = false →
    machine.runner? id = some runner → runner.lines = node :: rest →
    engine.executeLine node runner.frame (machine.updateRunner id fun runner => { runner with lines := rest }) =
      .done value ran → ran.halted = true →
    ∃ after, Exec.record id value ran = .done () after ∧ engine.drive id machine = .done () after
  microtask : ∀ task rest report machine ran, machine.microtasks = task :: rest →
    engine.runMicrotask task { machine with microtasks := rest } = .done () ran → ran.halted = true →
    engine.drainMicrotasks report machine = .done { report with microtasks := report.microtasks + 1 } ran
  event : ∀ id event rest report status machine ran, machine.event? id = some event →
    engine.serviceEvent id event machine = .done status ran → ran.halted = true →
    engine.serviceAll (id :: rest) report machine = .done (report.note status) ran

theorem line_step_halted (report : TickReport) (machine : Machine) (halted : machine.halted = true) :
    engine.lineStep report machine = .done (.inr report) machine := by
  unfold lineStep
  rw [Exec.read_then]
  cases machine.ready with
  | nil => rfl
  | cons line rest =>
    simp only [Exec.halted_then, halted, if_true]
    rfl

theorem step_halted (id : RunnerId) (machine : Machine) (halted : machine.halted = true) :
    engine.step id machine = .done (.inr ()) machine := by
  unfold step
  rw [Exec.halted_then, Exec.read_then, halted]
  rfl

variable (enough : 1 < engine.fuel)
include enough

theorem run_lines_halted (report : TickReport) (machine : Machine) (halted : machine.halted = true) :
    engine.runLines report machine = .done report machine := by
  rw [run_lines_rounds]
  obtain ⟨fuel, same⟩ : ∃ fuel, engine.fuel = fuel + 1 := ⟨engine.fuel - 1, by omega⟩
  rw [same]
  exact Exec.iterate_ended _ fuel report report machine machine (engine.line_step_halted report machine halted)

theorem tick_halted (machine : Machine) (halted : machine.halted = true) :
    engine.tick machine = .done .empty machine := by
  have skips : ∀ phase : TickReport → Exec TickReport, unlessHalted phase .empty machine = .done .empty machine := by
    intro phase
    unfold unlessHalted
    rw [Exec.halted_then, if_pos halted]
    rfl
  unfold tick
  rw [Exec.bind_done _ _ _ _ _ (engine.run_lines_halted enough .empty machine halted),
    Exec.bind_done _ _ _ _ _ (skips engine.drainMicrotasks)]
  exact skips engine.serviceEvents

theorem run_halted (machine : Machine) (halted : machine.halted = true) :
    engine.run machine = .done () machine := by
  rw [run_rounds]
  obtain ⟨fuel, same⟩ : ∃ fuel, engine.fuel = fuel + 1 := ⟨engine.fuel - 1, by omega⟩
  rw [same]
  apply Exec.iterate_ended
  unfold runStep
  rw [Exec.bind_done _ _ _ _ _ (engine.tick_halted enough machine halted), Exec.halted_then, if_pos halted]
  rfl

theorem drive_halted (id : RunnerId) (machine : Machine) (halted : machine.halted = true) :
    engine.drive id machine = .done () machine := by
  obtain ⟨fuel, same⟩ : ∃ fuel, engine.fuel = fuel + 1 := ⟨engine.fuel - 1, by omega⟩
  unfold drive
  rw [same]
  exact Exec.iterate_ended _ fuel () () machine machine (engine.step_halted id machine halted)

-- Another round finds the machine halted, for which the second unit of fuel is needed.
theorem line_finishes (line : Line) (rest : List Line) (report : TickReport) (value : Option Value)
    (machine ran : Machine) (running : machine.halted = false) (queue : machine.ready = line :: rest)
    (executed : engine.executeLine line.node line.frame { machine with ready := rest } = .done value ran)
    (halted : ran.halted = true) :
    ∃ after, (do Exec.record line.runner value; Exec.advance line.runner) ran = .done () after ∧
      engine.runLines report machine = .done { report with lines := report.lines + 1 } after := by
  obtain ⟨recorded, record, recordHalted⟩ := Exec.record_total line.runner value ran
  obtain ⟨after, advance, afterHalted⟩ := Exec.advance_total line.runner recorded
  refine ⟨after, (Exec.bind_done _ _ _ _ _ record).trans advance, ?_⟩
  have stepped : engine.lineStep report machine = .done (.inl { report with lines := report.lines + 1 }) after := by
    have awake : ¬ machine.halted = true := by simp [running]
    unfold lineStep
    rw [Exec.read_then, queue]
    simp only [Exec.halted_then, if_neg awake, Exec.modify_then]
    rw [Exec.bind_done _ _ _ _ _ executed, Exec.bind_done _ _ _ _ _ record, Exec.bind_done _ _ _ _ _ advance]
    rfl
  have stays : after.halted = true := afterHalted.trans (recordHalted.trans halted)
  obtain ⟨fuel, same⟩ : ∃ fuel, engine.fuel = fuel + 2 := ⟨engine.fuel - 2, by omega⟩
  rw [run_lines_rounds, same]
  simp only [Exec.iterate, stepped, engine.line_step_halted _ after stays]

theorem block_line_finishes (id : RunnerId) (runner : Runner) (node : Node) (rest : List Node)
    (value : Option Value) (machine ran : Machine) (running : machine.halted = false)
    (unreturned : machine.runnerReturned id = false) (known : machine.runner? id = some runner)
    (lines : runner.lines = node :: rest)
    (executed : engine.executeLine node runner.frame
      (machine.updateRunner id fun runner => { runner with lines := rest }) = .done value ran)
    (halted : ran.halted = true) :
    ∃ after, Exec.record id value ran = .done () after ∧ engine.drive id machine = .done () after := by
  obtain ⟨after, record, afterHalted⟩ := Exec.record_total id value ran
  refine ⟨after, record, ?_⟩
  have stepped : engine.step id machine = .done (.inl ()) after := by
    unfold step
    rw [Exec.halted_then, Exec.read_then, running, unreturned]
    simp only [Bool.or_self, Bool.false_eq_true, if_false]
    rw [Exec.read_then, known]
    simp only [lines, Exec.modify_then]
    rw [Exec.bind_done _ _ _ _ _ executed, Exec.bind_done _ _ _ _ _ record]
    rfl
  obtain ⟨fuel, same⟩ : ∃ fuel, engine.fuel = fuel + 2 := ⟨engine.fuel - 2, by omega⟩
  unfold drive
  rw [same]
  simp only [Exec.iterate, stepped, engine.step_halted id after (afterHalted.trans halted)]

theorem microtask_finishes (task : Microtask) (rest : List Microtask) (report : TickReport) (machine ran : Machine)
    (queue : machine.microtasks = task :: rest)
    (done : engine.runMicrotask task { machine with microtasks := rest } = .done () ran)
    (halted : ran.halted = true) :
    engine.drainMicrotasks report machine = .done { report with microtasks := report.microtasks + 1 } ran := by
  obtain ⟨fuel, same⟩ : ∃ fuel, engine.fuel = fuel + 1 := ⟨engine.fuel - 1, by omega⟩
  unfold drainMicrotasks
  rw [same]
  apply Exec.iterate_ended
  unfold drainStep
  rw [Exec.read_then, queue]
  simp only [Exec.modify_then]
  rw [Exec.bind_done _ _ _ _ _ done, Exec.halted_then, if_pos halted]
  rfl

omit enough in
theorem event_finishes (id : EventId) (event : Microevent) (rest : List EventId) (report : TickReport)
    (status : EventStatus) (machine ran : Machine) (known : machine.event? id = some event)
    (done : engine.serviceEvent id event machine = .done status ran) (halted : ran.halted = true) :
    engine.serviceAll (id :: rest) report machine = .done (report.note status) ran := by
  unfold serviceAll
  rw [Exec.read_then, known]
  simp only
  rw [Exec.bind_done _ _ _ _ _ done, Exec.halted_then, if_pos halted]
  rfl

theorem finishes_begun : engine.FinishesBegun where
  tick := engine.tick_halted enough
  run := engine.run_halted enough
  drive := engine.drive_halted enough
  line := engine.line_finishes enough
  blockLine := engine.block_line_finishes enough
  microtask := engine.microtask_finishes enough
  event := engine.event_finishes

end Engine

theorem halt_stops_tiers (engine : Engine) (tiers : Tiers) (alike : engine.tiers.Alike tiers)
    (enough : 1 < engine.fuel) : engine.BeginsNothing tiers ∧ engine.FinishesBegun := by
  refine ⟨⟨?_, ?_, ?_, fun task => ?_⟩, engine.finishes_begun enough⟩
  · rw [engine.tick_begins, engine.tiers.tick_alike tiers alike]
  · rw [engine.run_begins, engine.tiers.run_alike tiers alike]
  · rw [engine.run_block_begins]
    funext lines frame
    exact engine.tiers.run_block_alike tiers alike _ lines frame
  · rw [engine.await_begins, engine.tiers.await_alike tiers alike]

namespace Tiers

-- Whatever is begun on a halted machine never ends.
def frozen (tiers : Tiers) : Tiers where
  line node frame machine := if machine.halted then .outOfFuel else tiers.line node frame machine
  microtask task machine := if machine.halted then .outOfFuel else tiers.microtask task machine
  event id event machine := if machine.halted then .outOfFuel else tiers.event id event machine

theorem frozen_alike (tiers : Tiers) : tiers.Alike tiers.frozen where
  line node frame machine running := by simp [frozen, running]
  microtask task machine running := by simp [frozen, running]
  event id event machine running := by simp [frozen, running]

end Tiers

theorem halt_stops_standard_tiers :
    (RuleSet.standard.engine 9).BeginsNothing (RuleSet.standard.engine 9).tiers.frozen ∧
      (RuleSet.standard.engine 9).FinishesBegun :=
  halt_stops_tiers _ _ (RuleSet.standard.engine 9).tiers.frozen_alike (by decide)

-- Waiting runs an event after a microtask of its own has halted the machine.
theorem halt_lets_await_serve : ¬ ∀ (engine : Engine) (tiers : Tiers), engine.tiers.Alike tiers →
    ∀ task, engine.await task = tiers.await engine.fuel tiers.event task := by
  intro stops
  let engine := RuleSet.standard.engine 9
  let preparations : List Action :=
    [.registerEvent "e" [.mk [.mark "event"] .idle], .createTask "t", .enqueueMicrotask [.halt]]
  obtain ⟨_, machine, _, facts⟩ := Outcome.ends_with_done (engine.performAll preparations (Machine.start .standard))
    (fun machine => (engine.await ⟨1⟩ machine).failsWith (fun _ after => after.output == #["event"]) &&
      !(engine.tiers.frozen.await engine.fuel engine.tiers.frozen.event ⟨1⟩ machine).failsWith fun _ _ => true)
    (by decide +kernel)
  simp only [Bool.and_eq_true, Bool.not_eq_true'] at facts
  obtain ⟨served, stuck⟩ := facts
  obtain ⟨failure, after, failed, _⟩ := Outcome.fails_with_failed _ _ served
  rw [← stops engine engine.tiers.frozen engine.tiers.frozen_alike ⟨1⟩, failed] at stuck
  cases stuck

end CoopScript
