import CoopScript.Proofs.Machine.Round
import CoopScript.Proofs.Work.Call

set_option autoImplicit false
namespace CoopScript

namespace Moment
variable (moment : Moment)

theorem settler_pending (fine : moment.Fine) (task : TaskId) (settler : Settler)
    (member : (task, settler) ∈ moment.settlers) : moment.machine.tasks.state? task = some .pending :=
  fine.course.settler_waits _ _ _ task settler member

-- The microtask that comes next is going to settle the task, and the task waits.
theorem next_pending (fine : moment.Fine) (microtask : Microtask) (rest : List Microtask) (task : TaskId) (settler : Settler)
    (next : moment.machine.microtasks = microtask :: rest) (settles : microtask.settler? = some (task, settler)) :
    moment.machine.tasks.state? task = some .pending := by
  refine moment.settler_pending fine task settler (List.mem_append_left _ (List.mem_append_left _ ?_))
  exact List.mem_filterMap.mpr ⟨microtask, next ▸ List.mem_cons_self, settles⟩

end Moment

theorem Exec.settle_task_settles (task : TaskId) (value : Value) (machine : Machine)
    (pending : machine.tasks.state? task = some .pending) : ∃ tasks, machine.tasks.settle task value = .ok tasks ∧
      settleTask task value machine = .done () { machine with tasks := tasks } := by
  have settles := machine.tasks.settle_pending task value pending
  exact ⟨_, settles, by simp only [settleTask, settles]⟩

namespace Engine

section Begin
variable (engine : Engine) (report : TickReport) (machine after : Machine)

theorem begin_done (microtask : Microtask) (rest : List Microtask)
    (done : engine.runMicrotask microtask { machine with microtasks := rest } = .done () after) :
    ∃ result, engine.begin report microtask rest machine = .done result after := by
  unfold begin
  rw [Exec.modify_then, Exec.bind_done _ _ _ after () done, Exec.halted_then]
  split <;> exact ⟨_, rfl⟩

theorem begin_failed (microtask : Microtask) (rest : List Microtask) (failure : Failure)
    (failed : engine.runMicrotask microtask { machine with microtasks := rest } = .failed failure after) :
    engine.begin report microtask rest machine = .failed failure after := by
  unfold begin
  rw [Exec.modify_then]
  exact Exec.bind_failed _ _ _ after failure failed

theorem begin_exhausted (microtask : Microtask) (rest : List Microtask)
    (ran : engine.runMicrotask microtask { machine with microtasks := rest } = .outOfFuel) :
    engine.begin report microtask rest machine = .outOfFuel := by
  unfold begin
  rw [Exec.modify_then]
  exact Exec.bind_exhausted _ _ _ ran

variable (body : Activation) (rest : List Microtask) (left : Machine)
  (begun : body.begun = machine.entered rest body.frame)
include begun

-- What becomes of a body that has been taken out of the queue, once it has been run.
theorem run_body_ended (outcome : Except Failure Value)
    (ran : (engine.runFrame body.name body.lines body.frame).attempt body.begun = .done outcome left) :
    engine.runMicrotask (.asyncBody body.task body.name body.lines body.frame) { machine with microtasks := rest } =
      (do Exec.releaseFrame body.frame; let value ← Exec.ofOutcome outcome; Exec.settleTask body.task value) left := by
  show engine.runAsyncBody _ _ _ _ _ = _
  unfold runAsyncBody
  rw [Exec.modify_then]
  show (((engine.runFrame body.name body.lines body.frame).attempt >>= _) (machine.entered rest body.frame)) = _
  rw [← begun, Exec.bind_done _ _ _ left _ ran]

theorem run_body_exhausted (ran : engine.runFrame body.name body.lines body.frame body.begun = .outOfFuel) :
    engine.runMicrotask (.asyncBody body.task body.name body.lines body.frame) { machine with microtasks := rest } =
      .outOfFuel := by
  show engine.runAsyncBody _ _ _ _ _ = _
  unfold runAsyncBody
  rw [Exec.modify_then]
  show (((engine.runFrame body.name body.lines body.frame).attempt >>= _) (machine.entered rest body.frame)) = _
  rw [← begun]
  exact Exec.bind_exhausted _ _ _ (by simp only [Exec.attempt, ran])

end Begin

section Body
variable (fuel : Nat) (report : TickReport) (body : Activation) (rest : List Microtask) (moment : Moment)
  (fine : moment.Fine) (next : moment.machine.microtasks = .asyncBody body.task body.name body.lines body.frame :: rest)
  (begun : body.begun = moment.machine.entered rest body.frame) (marks : List Mark) (left : Machine)
  (runs : ((RuleSet.standard.engine fuel).runFrame body.name body.lines body.frame).Marks body.begun marks left)
include fine next begun runs

theorem left_fine : Moment.Fine ⟨body :: moment.bodies, moment.log ++ marks, left⟩ :=
  Moment.marks_fine _ _ left marks runs _ _ (Moment.entered_fine _ _ moment.machine body rest next begun fine)

omit fine next in
theorem left_later : moment.machine.Later left := by
  have later := Exec.marks_later _ _ left marks runs
  rw [begun] at later
  exact Machine.later_trans _ (moment.machine.entered rest body.frame) left (moment.machine.later_kept _ rfl rfl) later

-- The task is dropped if the body fails or its frame cannot be let go of.
theorem broken_tells {good : TickReport ⊕ TickReport → Prop} (failure : Failure) (after : Machine)
    (released : (Exec.releaseFrame body.frame left).Leaves after) (once : failure.Once)
    (failed : (RuleSet.standard.engine fuel).runMicrotask (.asyncBody body.task body.name body.lines body.frame)
      { moment.machine with microtasks := rest } = .failed failure after) :
    ((RuleSet.standard.engine fuel).begin report (.asyncBody body.task body.name body.lines body.frame) rest).Tells
      good moment := by
  have leftFine := left_fine fuel body rest moment fine next begun marks left runs
  have aside := Exec.clean_left (Exec.clean_release body.frame) left after leftFine.tidy released
  have later := left_later fuel body rest moment begun marks left runs
  have stops := begin_failed _ report moment.machine after _ rest failure failed
  have made := Exec.Marks.broken fuel report body rest failure moment.machine left after marks next begun runs released stops
    ⟨aside.tidy, Machine.later_trans _ left after later aside.later⟩
  exact Exec.failed_tells moment _ failure after _ stops made once

-- Whatever has run meanwhile, only this body was going to settle the task.
theorem returned_tells (value : Value) (mild : value.Mild) (middle : Machine)
    (ran : (RuleSet.standard.engine fuel).runFrame body.name body.lines body.frame body.begun = .done value left)
    (released : Exec.releaseFrame body.frame left = .done () middle) :
    ((RuleSet.standard.engine fuel).begin report (.asyncBody body.task body.name body.lines body.frame) rest).Tells
      (fun _ => True) moment := by
  have leftFine := left_fine fuel body rest moment fine next begun marks left runs
  have aside := Exec.clean_left (Exec.clean_release body.frame) left middle leftFine.tidy (.inl ⟨(), released⟩)
  have pending : middle.tasks.state? body.task = some .pending := by
    rw [aside.tasks]
    exact Moment.settler_pending _ leftFine body.task (.running body) (List.mem_append_right _ List.mem_cons_self)
  obtain ⟨tasks, settles, settled⟩ := Exec.settle_task_settles body.task value middle pending
  have tidy := Machine.tidy_tasks _ aside.tidy tasks fun other result =>
    middle.tasks.ready_settled tasks _ aside.tidy.mild.tasks body.task other value result mild settles
  have later := left_later fuel body rest moment begun marks left runs
  have ends := Engine.run_body_returned _ body rest value _ left middle _ begun ran released settled
  obtain ⟨result, done⟩ := begin_done _ report moment.machine _ _ rest ends
  have last := Machine.later_trans _ middle _ aside.later (middle.later_kept { middle with tasks := tasks } rfl rfl)
  have made := Exec.Marks.returned fuel report body rest value moment.machine left middle _ marks next begun runs ran released
    settled ⟨tidy, Machine.later_trans _ left _ later last⟩
  exact Exec.done_tells moment _ result _ _ done made trivial

end Body

variable (engine : Engine) (told : engine.Told) (moment : Moment) (fine : moment.Fine)
include told fine

theorem begin_body_tells (report : TickReport) (task : TaskId) (name : String) (lines : List Node) (frame : FrameId)
    (rest : List Microtask) (next : moment.machine.microtasks = .asyncBody task name lines frame :: rest) :
    (engine.begin report (.asyncBody task name lines frame) rest).Tells (fun _ => True) moment := by
  obtain ⟨fuel, rfl⟩ := told.standard
  let body : Activation := ⟨task, name, lines, frame, moment.machine.entered rest frame⟩
  have entered := Moment.entered_fine _ _ moment.machine body rest next rfl fine
  have tells := told_run_frame _ told name lines frame _ entered
  cases ran : (RuleSet.standard.engine fuel).runFrame name lines frame body.begun with
  | outOfFuel =>
    have stuck := run_body_exhausted _ moment.machine body rest rfl ran
    exact Exec.exhausted_tells moment _ (begin_exhausted _ report moment.machine _ rest stuck)
  | failed failure left =>
    obtain ⟨⟨marks, runs⟩, once⟩ := Exec.tells_failed _ _ failure left ran tells
    have ended := run_body_ended _ moment.machine body rest left rfl _ (Exec.attempt_failed _ _ left failure ran)
    cases released : Exec.releaseFrame frame left with
    | outOfFuel =>
      rw [Exec.bind_exhausted _ _ _ released] at ended
      exact Exec.exhausted_tells moment _ (begin_exhausted _ report moment.machine _ rest ended)
    | failed other middle =>
      have otherOnce := Exec.clean_once (Exec.clean_release frame) left middle other
        (left_fine fuel body rest moment fine next rfl marks left runs).tidy released
      rw [Exec.bind_failed _ _ _ middle other released] at ended
      exact broken_tells fuel report body rest moment fine next rfl marks left runs other middle (.inr ⟨other, released⟩)
        otherOnce ended
    | done _ middle =>
      rw [Exec.bind_done _ _ _ middle () released] at ended
      exact broken_tells fuel report body rest moment fine next rfl marks left runs failure middle (.inl ⟨(), released⟩) once
        ended
  | done value left =>
    obtain ⟨⟨marks, runs⟩, mild⟩ := Exec.tells_done _ _ value left ran tells
    have ended := run_body_ended _ moment.machine body rest left rfl _ (Exec.attempt_done _ _ left value ran)
    cases released : Exec.releaseFrame frame left with
    | outOfFuel =>
      rw [Exec.bind_exhausted _ _ _ released] at ended
      exact Exec.exhausted_tells moment _ (begin_exhausted _ report moment.machine _ rest ended)
    | failed other middle =>
      have otherOnce := Exec.clean_once (Exec.clean_release frame) left middle other
        (left_fine fuel body rest moment fine next rfl marks left runs).tidy released
      rw [Exec.bind_failed _ _ _ middle other released] at ended
      exact broken_tells fuel report body rest moment fine next rfl marks left runs other middle (.inr ⟨other, released⟩)
        otherOnce ended
    | done _ middle =>
      exact returned_tells fuel report body rest moment fine next rfl marks left runs value mild middle ran released

theorem begin_tells (report : TickReport) (microtask : Microtask) (rest : List Microtask)
    (next : moment.machine.microtasks = microtask :: rest) :
    (engine.begin report microtask rest).Tells (fun _ => True) moment := by
  have taken := moment.machine.tidy_taken fine.tidy microtask rest next
  cases microtask with
  | asyncBody task name lines frame => exact engine.begin_body_tells told moment fine report task name lines frame rest next
  | settle task outcome =>
    have pending := moment.next_pending fine _ rest task (.ended (some outcome)) next rfl
    have mild := moment.machine.classes.mild_scalar fine.tidy.mild.classes outcome
    obtain ⟨tasks, settles, settled⟩ := Exec.settle_task_settles task (moment.machine.classes.scalar outcome)
      { moment.machine with microtasks := rest } pending
    have tidy := Machine.tidy_tasks _ taken tasks fun other result =>
      moment.machine.tasks.ready_settled tasks _ fine.tidy.mild.tasks task other _ result mild settles
    obtain ⟨result, done⟩ := begin_done engine report moment.machine _ (.settle task outcome) rest settled
    have made := Exec.Marks.settle engine report task outcome rest moment.machine _ next settled
      ⟨tidy, Machine.later_kept _ _ rfl rfl⟩
    exact Exec.done_tells moment _ result _ _ done made trivial
  | panicked task =>
    have made := Exec.Marks.panic engine report task rest moment.machine next
    exact Exec.failed_tells moment _ (.of (.jobPanicked task.number)) _ _ rfl made (Failure.once_of _ rfl)
  | host actions =>
    have mild := fine.tidy.mild.microtasks _ (next ▸ List.mem_cons_self) actions rfl
    have dequeued := Moment.host_fine _ _ moment.machine actions rest next fine
    have tells := engine.told_perform_all told actions mild _ dequeued
    cases ran : engine.performAll actions { moment.machine with microtasks := rest } with
    | done _ after =>
      obtain ⟨⟨marks, made⟩, _⟩ := Exec.tells_done _ _ () after ran tells
      obtain ⟨result, done⟩ := begin_done engine report moment.machine after (.host actions) rest ran
      exact Exec.done_tells moment _ result after marks done
        (.host engine report actions rest moment.machine after marks next made) trivial
    | failed failure after =>
      obtain ⟨⟨marks, made⟩, once⟩ := Exec.tells_failed _ _ failure after ran tells
      have failed := begin_failed engine report moment.machine after (.host actions) rest failure ran
      exact Exec.failed_tells moment _ failure after marks failed
        (.host engine report actions rest moment.machine after marks next made) once
    | outOfFuel =>
      exact Exec.exhausted_tells moment _ (begin_exhausted engine report moment.machine (.host actions) rest ran)

-- An event of the host is put back, or removed, although much may have happened meanwhile.
theorem service_host_tells (id : EventId) (turns : List Turn) (place : Nat) (mild : Turn.allMild turns = true)
    (known : id.number ≤ moment.machine.eventCount) (other : moment.machine.poolEvent ≠ some id) :
    (engine.serviceEvent id (.host turns place)).Tells (fun _ => True) moment := by
  have acted : (engine.runEvent (.host turns place)).Told fun _ => True := by
    have turnMild := Microevent.turn_mild turns place mild
    cases turn : Microevent.turn turns place with
    | mk actions status =>
      rw [turn] at turnMild
      simp only [runEvent, turn]
      exact Exec.told_bind _ (engine.told_perform_all told actions turnMild) fun _ _ => Exec.told_pure status trivial
  have advanced : ∀ content, some (Microevent.host turns place).advanced = some content → content.Mild := by
    rintro _ ⟨⟩ _ _ ⟨⟩
    exact mild
  refine Exec.tells_bind moment _ _ fine
    (Exec.set_event_tells id moment fine other none (fun _ none => by cases none) (by simp)) ?_
  intro _ marks middle _ made middleFine _
  refine Exec.tells_bind _ _ _ middleFine (Exec.told_attempt acted _ middleFine) ?_
  intro outcome more after _ madeMore afterFine kept
  -- If the pool is asked anew by then, it is by an event with a higher number.
  have later := moment.machine.later_trans middle after (Exec.marks_later _ _ middle marks made)
    (Exec.marks_later _ middle after more madeMore)
  have late : after.poolEvent ≠ some id := moment.machine.later_other after later id known other
  have finished : (Exec.ofOutcome outcome).Told fun _ => True :=
    Exec.told_of_outcome outcome (fun _ _ => trivial) kept.2
  split
  · exact Exec.tells_bind _ _ _ afterFine (Exec.remove_event_tells id _ afterFine late)
      fun _ _ _ _ _ lastFine _ => finished _ lastFine
  · have back := Exec.set_event_tells id _ afterFine late _ advanced (by simp [Microevent.advanced])
    exact Exec.tells_bind _ _ _ afterFine back fun _ _ _ _ _ lastFine _ => finished _ lastFine

omit told in
theorem service_pool_tells (id : EventId) (member : (id, some .pollPool) ∈ moment.machine.events) :
    (engine.serviceEvent id .pollPool).Tells (fun _ => True) moment := by
  obtain ⟨status, polled, done, asked, _⟩ :=
    Exec.service_pool_done engine id moment.machine fine.tidy.polling.distinct member
  have tidy := moment.machine.tidy_polled fine.tidy status polled asked id (fine.tidy.polling.only id member)
  have later : ∀ events, moment.machine.Later { polled with events := events } := fun events => by
    cases asked with
    | forgotten => exact ⟨Nat.le_refl _, fun _ same => by cases same⟩
    | waiting | ended => exact ⟨Nat.le_refl _, fun _ same => .inl same⟩
  refine Exec.done_tells moment _ status _ [] done ?_ trivial
  exact .poll engine id moment.machine polled status _ asked done ⟨tidy, later _⟩

theorem service_event_tells (id : EventId) (event : Microevent) (found : moment.machine.event? id = some event) :
    (engine.serviceEvent id event).Tells (fun _ => True) moment := by
  have member : (id, some event) ∈ moment.machine.events := by
    obtain ⟨entry, located, content⟩ := Option.bind_eq_some_iff.mp found
    have named : entry.1 = id := by simpa using List.find?_some located
    exact (Prod.ext named content : entry = (id, some event)) ▸ List.mem_of_find?_eq_some located
  cases event with
  | pollPool => exact engine.service_pool_tells moment fine id member
  | host turns place =>
    refine engine.service_host_tells told moment fine id turns place ?_ (fine.tidy.polling.numbered _ member) fun same => ?_
    · exact fine.tidy.mild.events _ member _ rfl turns place rfl
    · have registered := fine.tidy.polling.registered id same
      have alike := List.inj_on_of_nodup_map fine.tidy.polling.distinct member registered rfl
      cases alike

end Engine

namespace Engine
variable (engine : Engine) (told : engine.Told)
include told

theorem told_drain_step (report : TickReport) :
    (engine.drainStep report).Told (Sum.elim (fun _ => True) fun _ => True) := by
  refine Exec.told_weaken (fun moment fine => ?_ : (engine.drainStep report).Told fun _ => True) fun result _ => by
    cases result <;> trivial
  refine Exec.tells_look moment fine _ _ ?_
  cases queue : moment.machine.microtasks with
  | nil => exact Exec.told_pure _ trivial moment fine
  | cons microtask rest => exact engine.begin_tells told moment fine report microtask rest queue

theorem told_service_all (ids : List EventId) (report : TickReport) :
    (engine.serviceAll ids report).Told fun _ => True := by
  induction ids generalizing report with
  | nil => exact Exec.told_pure _ trivial
  | cons id rest ih =>
    intro moment fine
    refine Exec.tells_look moment fine _ _ ?_
    cases found : moment.machine.event? id with
    | none => exact ih report moment fine
    | some event =>
      refine Exec.tells_bind moment _ _ fine (engine.service_event_tells told moment fine id event found) ?_
      intro status marks after _ _ afterFine _
      refine Exec.tells_look _ afterFine _ _ ?_
      split
      · exact Exec.told_pure _ trivial _ afterFine
      · exact ih _ _ afterFine

theorem told_service_events (report : TickReport) : (engine.serviceEvents report).Told fun _ => True :=
  Exec.told_bind _ (Exec.told_seen _) fun ids _ => engine.told_service_all told ids report

theorem serves_told : Conduct.told.Serves engine engine where
  toDrives := engine.drives_told told
  drain := engine.told_drain_step told
  events := engine.told_service_events told

theorem told_tick : engine.tick.Told fun _ => True :=
  (engine.serves_told told).tick Conduct.told_machinery () Arena.root

theorem told_run : engine.run.Told fun _ => True :=
  (engine.serves_told told).run Conduct.told_machinery () Arena.root

theorem told_await_step (task : TaskId) (idle : Nat) :
    (engine.awaitStep task idle).Told (Sum.elim (fun _ => True) Value.Mild) :=
  (engine.serves_told told).await_step Conduct.told_machinery () Arena.root task idle

theorem told_await (task : TaskId) : (engine.await task).Told Value.Mild :=
  (engine.serves_told told).await Conduct.told_machinery () Arena.root task

omit told in
theorem await_step_takes (moment : Moment) (fine : moment.Fine) (task : TaskId) (idle : Nat) (value : Value) (after : Machine)
    (done : engine.awaitStep task idle moment.machine = .done (.inr value) after) :
    (engine.awaitStep task idle).Marks moment.machine [.taken task value] after := by
  have consumed := engine.await_step_found task idle moment.machine value after done
  have goes := Exec.consumed_goes moment.machine after fine.tidy task value consumed
  have takes := Exec.Marks.take task value moment.machine after consumed goes
  have ends : (Pure.pure (.inr value) : Exec (Nat ⊕ Value)).Marks after [] after :=
    Exec.aside_marks _ (Exec.clean_calm (Exec.clean_read _)) after after (.inl ⟨_, rfl⟩) (after.aside_refl goes.tidy)
  exact .done _ _ moment.machine after after (some value) [.taken task value] [] consumed takes ends

-- A promise that was waited for gives the value that is taken out of its task last of all.
theorem await_takes (moment : Moment) (fine : moment.Fine) (task : TaskId) (value : Value) (after : Machine)
    (done : engine.await task moment.machine = .done value after) :
    ∃ marks, (engine.await task).Marks moment.machine (marks ++ [.taken task value]) after := by
  unfold await at done ⊢
  generalize engine.fuel = fuel at done ⊢
  generalize 0 = idle at done ⊢
  induction fuel generalizing idle moment with
  | zero => cases done
  | succ fuel ih =>
    rw [Exec.iterate_unrolled] at done ⊢
    obtain ⟨middle, result, ran, rest⟩ := Exec.done_of_bind _ _ moment.machine after value done
    obtain ⟨⟨marks, made⟩, _⟩ := Exec.tells_done moment _ result middle ran (engine.told_await_step told task idle moment fine)
    cases result with
    | inl next =>
      have middleFine := Moment.marks_fine _ moment.machine middle marks made _ _ fine
      obtain ⟨more, later⟩ := ih _ middleFine next rest
      exact ⟨marks ++ more, List.append_assoc marks more _ ▸ .done _ _ moment.machine middle after _ marks _ ran made later⟩
    | inr found =>
      cases rest
      have takes := engine.await_step_takes moment fine task idle value after ran
      have ends : (Pure.pure value : Exec Value).Marks after [] after := by
        have tidy := (Moment.marks_fine _ moment.machine after _ takes _ _ fine).tidy
        exact Exec.aside_marks _ (Exec.clean_calm (Exec.clean_read fun _ => value)) after after (.inl ⟨_, rfl⟩)
          (after.aside_refl tidy)
      exact ⟨[], .done _ _ moment.machine after after _ [.taken task value] [] ran takes ends⟩

end Engine

end CoopScript
