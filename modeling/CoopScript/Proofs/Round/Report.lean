import CoopScript.Proofs.Machine.Round

set_option autoImplicit false
namespace CoopScript

namespace TickReport

theorem idle_lines (report : TickReport) (idle : report.isIdle = true) : report.lines = 0 := by
  simp only [isIdle, Bool.and_eq_true, decide_eq_true_eq] at idle
  exact idle.1.1.1

theorem idle_microtasks (report : TickReport) (idle : report.isIdle = true) : report.microtasks = 0 := by
  simp only [isIdle, Bool.and_eq_true, decide_eq_true_eq] at idle
  exact idle.1.1.2

theorem idle_noted (report : TickReport) (status : EventStatus) (idle : (report.note status).isIdle = true) :
    report.isIdle = true ∧ status ≠ .busy ∧ status ≠ .progress := by
  cases status with
  | idle | done => exact ⟨idle, by simp, by simp⟩
  | busy | progress => simp [isIdle, note] at idle

theorem waiting_busy (report : TickReport) (waiting : report.isOnlyWaiting = true) :
    report.isIdle = false := by
  simp only [isOnlyWaiting, Bool.and_eq_true] at waiting
  simp [isIdle, waiting.2]

end TickReport

namespace Engine
variable (engine : Engine)

theorem line_step_counts (report : TickReport) (machine after : Machine) (result : TickReport ⊕ TickReport)
    (done : engine.lineStep report machine = .done result after) :
    (result = .inr report ∧ after = machine ∧ (machine.halted = true ∨ machine.ready = [])) ∨
      result = .inl { report with lines := report.lines + 1 } := by
  unfold lineStep at done
  rw [Exec.read_then] at done
  cases queue : machine.ready with
  | nil =>
    rw [queue] at done
    cases done
    exact .inl ⟨rfl, rfl, .inr rfl⟩
  | cons line rest =>
    rw [queue] at done
    simp only [Exec.halted_then] at done
    cases halted : machine.halted with
    | true =>
      rw [halted] at done
      cases done
      exact .inl ⟨rfl, rfl, .inl rfl⟩
    | false =>
      rw [halted] at done
      obtain ⟨_, value, _, later⟩ := Exec.done_of_bind _ _ { machine with ready := rest } after result done
      obtain ⟨_, _, _, moved⟩ := Exec.done_of_bind _ _ _ after result later
      obtain ⟨_, _, _, last⟩ := Exec.done_of_bind _ _ _ after result moved
      cases last
      exact .inr rfl

theorem run_lines_idle (machine after : Machine) (report result : TickReport)
    (done : engine.runLines report machine = .done result after) :
    report.lines ≤ result.lines ∧ (result.lines = report.lines →
      after = machine ∧ result = report ∧ (machine.halted = true ∨ machine.ready = [])) := by
  rw [run_lines_rounds] at done
  generalize engine.fuel = fuel at done
  induction fuel generalizing machine report with
  | zero => cases done
  | succ fuel ih =>
    unfold Exec.iterate at done
    cases ran : engine.lineStep report machine with
    | failed | outOfFuel =>
      rw [ran] at done
      cases done
    | done result middle =>
      rw [ran] at done
      rcases engine.line_step_counts report machine middle result ran with ⟨rfl, rfl, nothing⟩ | rfl
      · cases done
        exact ⟨Nat.le_refl _, fun _ => ⟨rfl, rfl, nothing⟩⟩
      · have more := (ih middle _ done).1
        exact ⟨Nat.le_of_succ_le more, fun same => absurd same (Nat.ne_of_gt more)⟩

theorem drain_step_counts (report : TickReport) (machine after : Machine) (result : TickReport ⊕ TickReport)
    (done : engine.drainStep report machine = .done result after) :
    (result = .inr report ∧ after = machine ∧ machine.microtasks = []) ∨
      result.elim id id = { report with microtasks := report.microtasks + 1 } := by
  unfold drainStep at done
  rw [Exec.read_then] at done
  cases tasks : machine.microtasks with
  | nil =>
    rw [tasks] at done
    cases done
    exact .inl ⟨rfl, rfl, rfl⟩
  | cons task rest =>
    rw [tasks] at done
    obtain ⟨middle, _, _, later⟩ := Exec.done_of_bind _ _ { machine with microtasks := rest } after result done
    rw [Exec.halted_then] at later
    cases halted : middle.halted <;> rw [halted] at later <;> cases later <;> exact .inr rfl

theorem drain_idle (machine after : Machine) (report result : TickReport)
    (done : engine.drainMicrotasks report machine = .done result after) :
    result.lines = report.lines ∧ result.events = report.events ∧ result.busy = report.busy ∧
      report.microtasks ≤ result.microtasks ∧
      (result.microtasks = report.microtasks → after = machine ∧ machine.microtasks = []) := by
  unfold drainMicrotasks at done
  generalize engine.fuel = fuel at done
  induction fuel generalizing machine report with
  | zero => cases done
  | succ fuel ih =>
    unfold Exec.iterate at done
    cases ran : engine.drainStep report machine with
    | failed | outOfFuel =>
      rw [ran] at done
      cases done
    | done result middle =>
      rw [ran] at done
      rcases engine.drain_step_counts report machine middle result ran with ⟨rfl, rfl, nothing⟩ | counted
      · cases done
        exact ⟨rfl, rfl, rfl, Nat.le_refl _, fun _ => ⟨rfl, nothing⟩⟩
      · cases result with
        | inl next =>
          obtain rfl : next = _ := counted
          obtain ⟨lines, events, busy, more, _⟩ := ih middle _ done
          exact ⟨lines, events, busy, Nat.le_of_succ_le more, fun same => absurd same (Nat.ne_of_gt more)⟩
        | inr last =>
          obtain rfl : last = _ := counted
          cases done
          exact ⟨rfl, rfl, rfl, Nat.le_succ _, fun same => absurd same (Nat.succ_ne_self _)⟩

omit engine in
theorem note_counted (report : TickReport) (status : EventStatus) :
    (report.note status).lines = report.lines ∧ (report.note status).microtasks = report.microtasks := by
  cases status <;> exact ⟨rfl, rfl⟩

theorem service_all_cons (id : EventId) (rest : List EventId) (report whole : TickReport) (machine after : Machine)
    (done : engine.serviceAll (id :: rest) report machine = .done whole after) :
    (machine.event? id = none ∧ engine.serviceAll rest report machine = .done whole after) ∨
      ∃ event status middle, machine.event? id = some event ∧ engine.serviceEvent id event machine = .done status middle ∧
        ((middle.halted = true ∧ whole = report.note status ∧ after = middle) ∨
          (middle.halted = false ∧ engine.serviceAll rest (report.note status) middle = .done whole after)) := by
  unfold serviceAll at done
  rw [Exec.read_then] at done
  cases found : machine.event? id with
  | none =>
    rw [found] at done
    exact .inl ⟨rfl, done⟩
  | some event =>
    rw [found] at done
    obtain ⟨middle, status, served, later⟩ := Exec.done_of_bind _ _ machine after whole done
    rw [Exec.halted_then] at later
    refine .inr ⟨event, status, middle, rfl, served, ?_⟩
    cases halted : middle.halted with
    | true =>
      rw [halted, if_pos rfl] at later
      cases later
      exact .inl ⟨rfl, rfl, rfl⟩
    | false =>
      rw [halted, if_neg Bool.false_ne_true] at later
      exact .inr ⟨rfl, later⟩

theorem service_counted (ids : List EventId) (report whole : TickReport) (machine after : Machine)
    (done : engine.serviceAll ids report machine = .done whole after) :
    whole.lines = report.lines ∧ whole.microtasks = report.microtasks := by
  induction ids generalizing report machine with
  | nil =>
    cases done
    exact ⟨rfl, rfl⟩
  | cons id rest ih =>
    rcases engine.service_all_cons id rest report whole machine after done with
      ⟨_, later⟩ | ⟨_, status, middle, _, _, ⟨_, rfl, _⟩ | ⟨_, later⟩⟩
    · exact ih report machine later
    · exact note_counted report status
    · obtain ⟨lines, microtasks⟩ := ih _ middle later
      exact ⟨lines.trans (note_counted report status).1, microtasks.trans (note_counted report status).2⟩

theorem unless_halted_done (phase : TickReport → Exec TickReport) (report whole : TickReport) (machine after : Machine)
    (done : unlessHalted phase report machine = .done whole after) :
    (machine.halted = true ∧ whole = report ∧ after = machine) ∨
      (machine.halted = false ∧ phase report machine = .done whole after) := by
  unfold unlessHalted at done
  rw [Exec.halted_then] at done
  cases halted : machine.halted with
  | true =>
    rw [halted, if_pos rfl] at done
    cases done
    exact .inl ⟨rfl, rfl, rfl⟩
  | false =>
    rw [halted, if_neg Bool.false_ne_true] at done
    exact .inr ⟨rfl, done⟩

theorem unless_halted_running (phase : TickReport → Exec TickReport) (report result : TickReport)
    (machine after : Machine) (done : unlessHalted phase report machine = .done result after)
    (running : after.halted = false) :
    machine.halted = false ∧ phase report machine = .done result after := by
  rcases unless_halted_done phase report result machine after done with ⟨halted, _, rfl⟩ | ran
  · cases halted.symm.trans running
  · exact ran

theorem tick_reports_lines (report whole : TickReport) (machine middle after : Machine)
    (lines : engine.runLines .empty machine = .done report middle) (done : engine.tick machine = .done whole after) :
    whole.lines = report.lines := by
  unfold tick at done
  rw [Exec.bind_done _ _ _ _ report lines] at done
  obtain ⟨between, drained, drains, serves⟩ := Exec.done_of_bind _ _ middle after whole done
  have drain_lines : drained.lines = report.lines := by
    rcases unless_halted_done _ _ _ _ _ drains with ⟨_, rfl, _⟩ | ⟨_, ran⟩
    · rfl
    · exact (engine.drain_idle middle between report drained ran).1
  rcases unless_halted_done _ _ _ _ _ serves with ⟨_, rfl, _⟩ | ⟨_, ran⟩
  · exact drain_lines
  · exact (engine.service_counted _ drained whole between after ran).1.trans drain_lines

-- An idle tick that did not halt has found both queues empty, and has done nothing but ask the events.
theorem idle_tick_asks (report : TickReport) (machine after : Machine) (done : engine.tick machine = .done report after)
    (idle : report.isIdle = true) (running : after.halted = false) :
    machine.ready = [] ∧ machine.microtasks = [] ∧ machine.halted = false ∧
      engine.runLines .empty machine = .done .empty machine ∧
      engine.drainMicrotasks .empty machine = .done .empty machine ∧
      engine.serviceEvents .empty machine = .done report after := by
  obtain ⟨passed, lined, lines, rest⟩ := Exec.done_of_bind _ _ machine after report done
  obtain ⟨between, drained, drains, serves⟩ := Exec.done_of_bind _ _ passed after report rest
  obtain ⟨stillRunning, service⟩ := unless_halted_running _ _ _ _ _ serves running
  obtain ⟨running, drain⟩ := unless_halted_running _ _ _ _ _ drains stillRunning
  have no_lines := (engine.tick_reports_lines lined report machine passed after lines done).symm.trans (report.idle_lines idle)
  obtain ⟨_, untouched⟩ := engine.run_lines_idle machine passed .empty lined lines
  obtain ⟨rfl, rfl, why⟩ := untouched no_lines
  have no_microtasks :=
    (engine.service_counted _ drained report between after service).2.symm.trans (report.idle_microtasks idle)
  obtain ⟨sameLines, sameEvents, sameBusy, _, stays⟩ := engine.drain_idle passed between .empty drained drain
  obtain ⟨rfl, no_tasks⟩ := stays no_microtasks
  have same : drained = .empty := by
    cases drained
    simp_all [TickReport.empty]
  subst same
  exact ⟨why.resolve_left (by simp [running]), no_tasks, running, lines, drain, service⟩

theorem run_step_ended (idle : Nat) (machine after : Machine) (ended : engine.runStep idle machine = .done (.inr ()) after)
    (running : after.halted = false) : ∃ report, engine.tick machine = .done report after ∧ report.isIdle = true := by
  obtain ⟨ticked, report, tick, decided⟩ := Exec.done_of_bind _ _ machine after _ ended
  rw [Exec.halted_then] at decided
  by_cases halted : ticked.halted = true
  · rw [if_pos halted] at decided
    cases decided
    rw [halted] at running
    cases running
  · rw [if_neg halted] at decided
    cases waiting : report.isOnlyWaiting with
    | true =>
      rw [waiting, if_pos rfl] at decided
      simp only [report.waiting_busy waiting, Bool.not_false, if_true] at decided
      cases decided
    | false =>
      rw [waiting, if_neg Bool.false_ne_true] at decided
      cases idleTick : report.isIdle with
      | false =>
        simp only [idleTick, Bool.not_false, if_true] at decided
        cases decided
      | true =>
        simp only [idleTick, Bool.not_true, Bool.false_eq_true, if_false] at decided
        rw [Exec.read_then] at decided
        split at decided
        · cases decided
          exact ⟨report, tick, idleTick⟩
        · cases decided

end Engine

end CoopScript
