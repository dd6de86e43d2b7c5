import CoopScript.Proofs.Frame.Lasting
import CoopScript.Proofs.Stage.Step

set_option autoImplicit false
namespace CoopScript

namespace Arena

theorem kept_counts (arena : Arena) (owners others : List FrameId) (kept : arena.Kept owners)
    (same : ∀ id, owners.count id = others.count id) : arena.Kept others :=
  kept_perm arena owners others (List.perm_iff_count.mpr same) kept

end Arena

namespace Exec

theorem release_frame_kept (frame : FrameId) (owners : List FrameId) (machine : Machine)
    (kept : machine.frames.Kept (frame :: owners)) :
    ∃ frames, releaseFrame frame machine = .done () { machine with frames := frames } ∧
      frames.Kept owners ∧ machine.frames.Shrinks frames := by
  obtain ⟨frames, released, framesKept, shrinks⟩ := Arena.kept_release machine.frames owners frame kept
  exact ⟨frames, by simp [releaseFrame, released], framesKept, shrinks⟩

theorem released_kept (frame : FrameId) (owners : List FrameId) (machine after : Machine)
    (kept : machine.frames.Kept (frame :: owners))
    (released : releaseFrame frame machine = .done () after) :
    ∃ frames, after = { machine with frames := frames } ∧ frames.Kept owners ∧
      machine.frames.Shrinks frames := by
  obtain ⟨frames, done, framesKept, shrinks⟩ := release_frame_kept frame owners machine kept
  rw [released] at done
  cases done
  exact ⟨frames, rfl, framesKept, shrinks⟩

end Exec

namespace Machine

theorem plain_frames (machine : Machine) (frames : Arena) (plain : machine.Plain)
    (framesPlain : frames.Plain) : { machine with frames := frames }.Plain :=
  ⟨plain.classes, framesPlain, plain.tasks, plain.microtasks, plain.jobs⟩

end Machine

namespace Stage

theorem count_owners (calls : List Call) (held : List FrameId) (machine : Machine) (id : FrameId) :
    (Stage.mk calls held machine).owners.count id = (if Arena.root = id then 1 else 0) +
      (machine.registered.map Prod.snd).count id + machine.asyncFrames.count id +
      (calls.map Call.frame).count id + held.count id := by
  unfold owners
  simp only [List.count_cons, List.count_append, beq_iff_eq]
  omega

theorem bodies_lasting (calls : List Call) (held : List FrameId) (machine : Machine) (frames : Arena)
    (sound : (Stage.mk calls held machine).Sound) (lasting : machine.frames.Lasting frames) :
    ∀ id ∈ machine.asyncFrames, ∀ frame, frames.frame? id = some frame → frame.isFunction = true := by
  intro id member frame found
  have live := sound.ledger.live id (by simp [owners, member])
  obtain ⟨old, oldFound⟩ := (Arena.live_found machine.frames id).mp live
  exact (lasting id old frame oldFound found).2.trans (sound.bodies id member old oldFound)

theorem end_run_sound (frame : FrameId) (task : Option TaskId) (calls : List Call) (held : List FrameId)
    (machine : Machine) (sound : (Stage.mk (⟨frame, task, true⟩ :: calls) held machine).Sound) :
    (Stage.mk (⟨frame, task, false⟩ :: calls) held { machine with depth := machine.depth - 1 }).Sound := by
  have depth : machine.depth = calls.countP Call.running + 1 := by
    simpa [List.countP_cons] using sound.depth
  refine ⟨sound.ledger, ?_, sound.waiting, sound.distinct, sound.bodies, ⟨sound.numbered.1, sound.numbered.2⟩,
    ?_, ⟨sound.served.1, sound.served.2⟩⟩
  · simp [depth]
  · have plain := sound.plain
    exact ⟨plain.classes, plain.frames, plain.tasks, plain.microtasks, plain.jobs⟩

theorem begin_run_sound (frame : FrameId) (task : Option TaskId) (calls : List Call)
    (held : List FrameId) (machine : Machine)
    (sound : (Stage.mk (⟨frame, task, false⟩ :: calls) held machine).Sound) :
    (Stage.mk (⟨frame, task, true⟩ :: calls) held { machine with depth := machine.depth + 1 }).Sound := by
  have depth : machine.depth = calls.countP Call.running := by
    simpa [List.countP_cons] using sound.depth
  refine ⟨sound.ledger, ?_, sound.waiting, sound.distinct, sound.bodies, ⟨sound.numbered.1, sound.numbered.2⟩,
    ?_, ⟨sound.served.1, sound.served.2⟩⟩
  · simp [depth]
  · have plain := sound.plain
    exact ⟨plain.classes, plain.frames, plain.tasks, plain.microtasks, plain.jobs⟩

theorem call_ledger (call : Call) (calls : List Call) (held : List FrameId) (machine : Machine)
    (sound : (Stage.mk (call :: calls) held machine).Sound) :
    machine.frames.Kept (call.frame :: (Stage.mk calls held machine).owners) := by
  refine Arena.kept_counts _ _ _ sound.ledger fun id => ?_
  simp only [count_owners, List.map_cons, List.count_cons]
  omega

theorem runner_ledger (calls : List Call) (held : List FrameId) (machine : Machine) (id : RunnerId)
    (runner : Runner) (known : machine.runner? id = some runner)
    (sound : (Stage.mk calls held machine).Sound) :
    machine.frames.Kept (runner.frame :: (Stage.mk calls held
      { machine with runners := Machine.swapErase id machine.runners }).owners) := by
  have erased := (Machine.registered_erased machine id runner known).map Prod.snd
  refine Arena.kept_counts _ _ _ sound.ledger fun other => ?_
  have counted : (runner.frame :: (Machine.registered
      { machine with runners := Machine.swapErase id machine.runners }).map Prod.snd).count other =
      (machine.registered.map Prod.snd).count other := erased.count_eq other
  simp only [List.count_cons] at counted
  simp only [count_owners, List.count_cons]
  omega

theorem leave_call_sound (frame : FrameId) (task : Option TaskId) (calls : List Call)
    (held : List FrameId) (machine after : Machine)
    (sound : (Stage.mk (⟨frame, task, false⟩ :: calls) held machine).Sound)
    (released : Exec.releaseFrame frame machine = .done () after) :
    (Stage.mk calls held after).Sound := by
  have ledger := call_ledger ⟨frame, task, false⟩ calls held machine sound
  obtain ⟨frames, rfl, kept, shrinks⟩ := Exec.released_kept frame _ machine after ledger released
  have bodies := bodies_lasting _ held machine frames sound (Arena.lasting_shrinks machine.frames frames shrinks)
  refine ⟨kept, ?_, sound.waiting, sound.distinct, bodies, ⟨sound.numbered.1, sound.numbered.2⟩, ?_,
    ⟨sound.served.1, sound.served.2⟩⟩
  · simpa [List.countP_cons] using sound.depth
  · exact Machine.plain_frames machine frames sound.plain
      (Arena.plain_shrinks machine.frames frames sound.plain.frames shrinks)

theorem finish_runner_sound (stage : Stage) (id : RunnerId) (last : Option Value) (after : Machine)
    (sound : stage.Sound) (finished : Exec.finishRunner id stage.machine = .done last after) :
    (stage.put after).Sound := by
  obtain ⟨calls, held, machine⟩ := stage
  rcases Exec.finish_runner_done id last machine after finished with ⟨_, rfl⟩ | found
  · exact sound
  · obtain ⟨runner, frames, known, released, rfl⟩ := found
    have ledger := runner_ledger calls held machine id runner known sound
    obtain ⟨framesLeft, done, kept, shrinks⟩ := Arena.kept_release machine.frames _ runner.frame ledger
    rw [released] at done
    cases done
    have bodies := bodies_lasting _ held machine frames sound (Arena.lasting_shrinks machine.frames frames shrinks)
    refine ⟨kept, sound.depth, sound.waiting, sound.distinct, bodies, ?_, ?_,
      ⟨sound.served.1, sound.served.2⟩⟩
    · exact Machine.numbered_erased machine id runner frames known sound.numbered
    · have plain := sound.plain
      exact ⟨plain.classes, Arena.plain_shrinks machine.frames frames plain.frames shrinks, plain.tasks,
        plain.microtasks, plain.jobs⟩

theorem closing_sound (stage after : Stage) (sound : stage.Sound) (closed : Closing stage after) :
    after.Sound := by
  cases closed with
  | endRun frame task calls held machine => exact end_run_sound frame task calls held machine sound
  | closeCall frame calls held machine after released =>
    exact leave_call_sound frame none calls held machine after sound released
  | closeBlock _ id last after finished => exact finish_runner_sound stage id last after sound finished

theorem quiet_sound (stage : Stage) (output : Array String) (halted : Bool) (identity clock : Nat)
    (ready : List Line) (sound : stage.Sound) :
    (stage.put { stage.machine with
      output := output, halted := halted, nextIdentity := identity, clock := clock,
      ready := ready }).Sound := by
  have plain := sound.plain
  exact ⟨sound.ledger, sound.depth, sound.waiting, sound.distinct, sound.bodies, ⟨sound.numbered.1, sound.numbered.2⟩,
    ⟨plain.classes, plain.frames, plain.tasks, plain.microtasks, plain.jobs⟩,
    ⟨sound.served.1, sound.served.2⟩⟩

theorem adjust_sound (stage : Stage) (id : RunnerId) (change : Runner → Runner)
    (same : ∀ runner, (change runner).frame = runner.frame) (sound : stage.Sound) :
    (stage.put (stage.machine.updateRunner id change)).Sound := by
  have plain := sound.plain
  have registered := Machine.registered_updated stage.machine id change same
  refine ⟨?_, sound.depth, sound.waiting, sound.distinct, sound.bodies,
    Machine.numbered_updated stage.machine id change same sound.numbered,
    ⟨plain.classes, plain.frames, plain.tasks, plain.microtasks, plain.jobs⟩,
    ⟨sound.served.1, sound.served.2⟩⟩
  have owners : (stage.put (stage.machine.updateRunner id change)).owners = stage.owners := by
    unfold owners put
    rw [registered]
    rfl
  rw [owners]
  exact sound.ledger

theorem alter_sound (stage : Stage) (id : FrameId) (old frame : Frame)
    (found : stage.machine.frames.frame? id = some old) (sameParent : frame.parent = old.parent)
    (sameKind : frame.isFunction = old.isFunction) (sameHolds : frame.holds = old.holds)
    (plain : frame.Plain) (sound : stage.Sound) :
    (stage.put { stage.machine with frames := stage.machine.frames.setFrame id.index frame }).Sound := by
  have bodies := bodies_lasting _ stage.held stage.machine _ sound
    (Arena.lasting_set stage.machine.frames id old frame found sameParent sameKind)
  refine ⟨?_, sound.depth, sound.waiting, sound.distinct, bodies, ⟨sound.numbered.1, sound.numbered.2⟩,
    Machine.plain_frames stage.machine _ sound.plain
      (Arena.plain_set stage.machine.frames id old frame sound.plain.frames found plain),
    ⟨sound.served.1, sound.served.2⟩⟩
  refine Arena.kept_set stage.machine.frames stage.owners _ id old frame sound.ledger found sameParent
    (fun _ _ => rfl) ?_ ?_
  · rw [sameHolds]
    exact sound.ledger.balance id old found
  · rw [sameHolds]
    exact sound.ledger.positive id old found

theorem open_call_sound (stage : Stage) (caller id : FrameId) (arguments : Bindings) (after : Machine)
    (plain : arguments.All Value.Plain)
    (opened : Exec.pushFrame caller true arguments stage.machine = .done id after) (sound : stage.Sound) :
    (Stage.mk (⟨id, none, false⟩ :: stage.calls) stage.held after).Sound := by
  obtain ⟨calls, held, machine⟩ := stage
  obtain ⟨frames, pushed, rfl⟩ := Exec.push_frame_done caller id true arguments machine after opened
  have bodies := bodies_lasting calls held machine frames sound
    (Arena.lasting_push machine.frames frames _ caller id true arguments sound.ledger pushed)
  refine ⟨?_, ?_, sound.waiting, sound.distinct, bodies, ⟨sound.numbered.1, sound.numbered.2⟩,
    Machine.plain_frames machine frames sound.plain (Arena.plain_push machine.frames frames _ caller id
      true arguments sound.ledger sound.plain.frames plain pushed),
    ⟨sound.served.1, sound.served.2⟩⟩
  · refine Arena.kept_counts _ _ _
      (Arena.kept_push machine.frames frames _ caller id true arguments sound.ledger pushed) fun other => ?_
    have registered : Machine.registered { machine with frames := frames } = machine.registered := rfl
    simp only [count_owners, List.count_cons, List.map_cons, registered]
    omega
  · simpa [List.countP_cons] using sound.depth

theorem open_block_sound (stage : Stage) (lines : List Node) (frame : FrameId) (id : RunnerId)
    (after : Machine) (opened : Exec.createRunner lines frame stage.machine = .done id after)
    (sound : stage.Sound) : (stage.put after).Sound := by
  obtain ⟨calls, held, machine⟩ := stage
  obtain ⟨frames, functionFrame, retained, _, rfl, rfl⟩ :=
    Exec.create_runner_done lines frame id machine after opened
  have plain := sound.plain
  have bodies := bodies_lasting calls held machine frames sound
    (Arena.lasting_retain machine.frames frames frame retained)
  refine ⟨?_, sound.depth, sound.waiting, sound.distinct, bodies,
    Machine.numbered_appended machine _ _ frames sound.numbered,
    ⟨plain.classes, Arena.plain_retain machine.frames frames frame plain.frames retained, plain.tasks,
      plain.microtasks, plain.jobs⟩,
    ⟨sound.served.1, sound.served.2⟩⟩
  refine Arena.kept_counts _ _ _
    (Arena.kept_retain machine.frames frames _ frame sound.ledger retained) fun other => ?_
  simp only [put, count_owners, List.count_cons, Machine.registered, List.map_append, List.map_cons,
    List.map_nil, List.count_append, List.count_nil]
  omega

theorem ready_changed (good : Value → Prop) (before after : TaskTable) (task : TaskId) (state : TaskState)
    (all : ∀ task value, before.state? task = some (.ready value) → good value)
    (fine : ∀ value, state = .ready value → good value)
    (changed : ∀ other, after.state? other = if other = task then some state else before.state? other) :
    ∀ task value, after.state? task = some (.ready value) → good value := by
  intro other value ready
  rw [changed] at ready
  split at ready
  next =>
    cases ready
    exact fine value rfl
  next => exact all other value ready

theorem ready_created (good : Value → Prop) (tasks : TaskTable)
    (all : ∀ task value, tasks.state? task = some (.ready value) → good value) :
    ∀ task value, tasks.create.2.state? task = some (.ready value) → good value :=
  ready_changed good tasks tasks.create.2 tasks.create.1 .pending all (fun _ same => by cases same)
    (TaskTable.state_created tasks)

theorem spawn_sound (stage : Stage) (name : String) (lines : List Node) (arguments : Bindings)
    (caller : FrameId) (promise : Value) (after : Machine) (argumentsPlain : arguments.All Value.Plain)
    (spawned : Exec.spawnAsync name lines arguments caller stage.machine = .done promise after)
    (sound : stage.Sound) : (stage.put after).Sound := by
  obtain ⟨calls, held, machine⟩ := stage
  obtain ⟨frame, frames, pushed, _, rfl⟩ :=
    Exec.spawn_async_done name lines arguments caller promise machine after spawned
  have plain := sound.plain
  obtain ⟨fresh, _, _, reads⟩ :=
    Arena.push_found machine.frames frames _ caller frame true arguments sound.ledger pushed
  have bodies := bodies_lasting calls held machine frames sound
    (Arena.lasting_push machine.frames frames _ caller frame true arguments sound.ledger pushed)
  refine ⟨?_, sound.depth, ?_, ?_, ?_, ⟨sound.numbered.1, sound.numbered.2⟩,
    ⟨plain.classes, Arena.plain_push machine.frames frames _ caller frame true arguments sound.ledger
        plain.frames argumentsPlain pushed,
      ready_created Value.Plain machine.tasks plain.tasks, ?_, plain.jobs⟩,
    ⟨sound.served.1, sound.served.2⟩⟩
  · refine Arena.kept_counts _ _ _
      (Arena.kept_push machine.frames frames _ caller frame true arguments sound.ledger pushed) fun other => ?_
    simp only [put, count_owners, List.count_cons, Machine.registered, List.count_append, List.count_nil]
    omega
  · have waiting : machine.asyncFrames = machine.microtasks.filterMap Microtask.frame? := sound.waiting
    simp [put, waiting, Microtask.frame?]
  · have unknown : frame ∉ machine.asyncFrames := by
      intro member
      have live := sound.ledger.live frame (by simp [owners, member])
      simp [Arena.isLive, fresh] at live
    exact (List.perm_append_singleton _ _).nodup_iff.mpr (List.nodup_cons.mpr ⟨unknown, sound.distinct⟩)
  · intro id member content found
    rcases List.mem_append.mp member with old | new
    · exact bodies id old content found
    · obtain rfl := List.mem_singleton.mp new
      have read := (reads id).symm.trans found
      rw [if_pos rfl] at read
      cases read
      rfl
  · intro microtask member
    rcases List.mem_append.mp member with old | new
    · exact plain.microtasks microtask old
    · obtain rfl := List.mem_singleton.mp new
      exact .inl ⟨_, _, _, _, rfl⟩

theorem start_body_sound (calls : List Call) (held : List FrameId) (machine : Machine) (task : TaskId)
    (name : String) (lines : List Node) (frame : FrameId) (rest : List Microtask)
    (next : machine.microtasks = .asyncBody task name lines frame :: rest)
    (sound : (Stage.mk calls held machine).Sound) :
    (Stage.mk (⟨frame, some task, false⟩ :: calls) held
      { machine with
        microtasks := rest
        asyncFrames := machine.asyncFrames.filter (· ≠ frame) }).Sound := by
  have plain := sound.plain
  have waiting : machine.asyncFrames = frame :: rest.filterMap Microtask.frame? := by
    have listed := sound.waiting
    simpa only [next, List.filterMap_cons, Microtask.frame?] using listed
  have distinct : (frame :: rest.filterMap Microtask.frame?).Nodup := waiting ▸ sound.distinct
  have others : machine.asyncFrames.filter (· ≠ frame) = rest.filterMap Microtask.frame? := by
    rw [waiting, List.filter_cons_of_neg (by simp)]
    refine List.filter_eq_self.mpr fun other member => ?_
    have different : other ≠ frame := fun same => (List.nodup_cons.mp distinct).1 (same ▸ member)
    simpa using different
  have bodies : ∀ id ∈ rest.filterMap Microtask.frame?, ∀ content, machine.frames.frame? id = some content →
      content.isFunction = true := fun id member => sound.bodies id (waiting ▸ List.mem_cons_of_mem _ member)
  rw [others]
  refine ⟨?_, ?_, rfl, (List.nodup_cons.mp distinct).2, bodies, ⟨sound.numbered.1, sound.numbered.2⟩,
    ⟨plain.classes, plain.frames, plain.tasks, ?_, plain.jobs⟩, ⟨sound.served.1, sound.served.2⟩⟩
  · refine Arena.kept_counts _ _ _ sound.ledger fun other => ?_
    simp only [count_owners, waiting, List.map_cons, List.count_cons, Machine.registered]
    omega
  · simpa [List.countP_cons] using sound.depth
  · intro microtask member
    exact plain.microtasks microtask (next ▸ List.mem_cons_of_mem _ member)

theorem settled_sound (calls : List Call) (held : List FrameId) (machine after : Machine) (task : TaskId)
    (value : Value) (plainValue : value.Plain) (settled : Exec.settleTask task value machine = .done () after)
    (sound : (Stage.mk calls held machine).Sound) : (Stage.mk calls held after).Sound := by
  obtain ⟨tasks, done, rfl⟩ := Exec.settle_task_done task value machine after settled
  obtain ⟨_, changed⟩ := TaskTable.settle_done machine.tasks tasks task value done
  have plain := sound.plain
  have tasksPlain := ready_changed Value.Plain machine.tasks tasks task (.ready value) plain.tasks
    (fun other same => by cases same; exact plainValue) changed
  exact ⟨sound.ledger, sound.depth, sound.waiting, sound.distinct, sound.bodies, ⟨sound.numbered.1, sound.numbered.2⟩,
    ⟨plain.classes, plain.frames, tasksPlain, plain.microtasks, plain.jobs⟩,
    ⟨sound.served.1, sound.served.2⟩⟩

theorem dequeued_sound (stage : Stage) (task : TaskId) (value : Scalar) (rest : List Microtask)
    (next : stage.machine.microtasks = .settle task value :: rest) (sound : stage.Sound) :
    (stage.put { stage.machine with microtasks := rest }).Sound := by
  have plain := sound.plain
  refine ⟨sound.ledger, sound.depth, ?_, sound.distinct, sound.bodies, ⟨sound.numbered.1, sound.numbered.2⟩,
    ⟨plain.classes, plain.frames, plain.tasks, ?_, plain.jobs⟩, ⟨sound.served.1, sound.served.2⟩⟩
  · have waiting := sound.waiting
    rwa [next] at waiting
  · intro microtask member
    exact plain.microtasks microtask (next ▸ List.mem_cons_of_mem _ member)

theorem consume_sound (stage : Stage) (task : TaskId) (value : Value) (after : Machine)
    (consumed : Exec.consumeTask task stage.machine = .done (some value) after) (sound : stage.Sound) :
    (stage.put after).Sound := by
  obtain ⟨tasks, done, rfl⟩ := Exec.consume_task_done task (some value) stage.machine after consumed
  obtain ⟨_, changed⟩ := TaskTable.consume_done stage.machine.tasks tasks task value done
  have plain := sound.plain
  have tasksPlain := ready_changed Value.Plain stage.machine.tasks tasks task .consumed plain.tasks
    (fun other same => by cases same) changed
  exact ⟨sound.ledger, sound.depth, sound.waiting, sound.distinct, sound.bodies, ⟨sound.numbered.1, sound.numbered.2⟩,
    ⟨plain.classes, plain.frames, tasksPlain, plain.microtasks, plain.jobs⟩,
    ⟨sound.served.1, sound.served.2⟩⟩

theorem submit_sound (stage : Stage) (outcome : Scalar) (milliseconds : Nat) (promise : Value)
    (after : Machine)
    (spawned : Exec.spawnBlocking (some outcome) milliseconds stage.machine = .done promise after)
    (sound : stage.Sound) : (stage.put after).Sound := by
  obtain ⟨calls, held, machine⟩ := stage
  obtain ⟨pool, due, events, eventCount, event, _, rfl, jobs, polled⟩ :=
    Exec.spawn_blocking_done (some outcome) milliseconds promise machine after spawned
  have plain := sound.plain
  have listed : machine.events = machine.poolEvent.toList.map fun id => (id, some .pollPool) :=
    sound.served.events
  refine ⟨sound.ledger, sound.depth, sound.waiting, sound.distinct, sound.bodies, ⟨sound.numbered.1, sound.numbered.2⟩,
    ⟨plain.classes, plain.frames, ready_created Value.Plain machine.tasks plain.tasks, plain.microtasks, ?_⟩,
    ⟨?_, fun _ => by simp [put]⟩⟩
  · intro job member
    have known : job ∈ pool.jobs := member
    rw [jobs] at known
    rcases List.mem_append.mp known with old | new
    · exact plain.jobs job old
    · obtain rfl := List.mem_singleton.mp new
      simp
  · rcases polled with ⟨same, rfl⟩ | ⟨absent, rfl⟩
    · simpa [put, same] using listed
    · simp [put, listed, absent]

theorem microtask_settles (job : Job) (ends : job.outcome ≠ none) :
    ∃ value, job.microtask = .settle job.task value := by
  unfold Job.microtask
  cases outcome : job.outcome with
  | none => exact absurd outcome ends
  | some value => exact ⟨value, rfl⟩

theorem polled_sound (stage : Stage) (id : EventId) (status : EventStatus) (polled : Machine)
    (only : stage.machine.events = [(id, some .pollPool)])
    (done : Exec.Polled stage.machine status polled) (sound : stage.Sound) :
    (stage.put { polled with
      events := if status = .done then [] else stage.machine.events }).Sound := by
  have plain := sound.plain
  have eventKnown : stage.machine.poolEvent ≠ none := by
    intro absent
    have empty := sound.served.events
    rw [only, absent] at empty
    cases empty
  cases done with
  | forgotten clock pool idle stillIdle =>
    have noJobs : Machine.jobs { stage.machine with clock := clock, pool := pool, poolEvent := none } = [] := by
      cases content : pool with
      | none => simp [Machine.jobs]
      | some pool => exact stillIdle pool content
    refine ⟨sound.ledger, sound.depth, sound.waiting, sound.distinct, sound.bodies, ⟨sound.numbered.1, sound.numbered.2⟩,
      ⟨plain.classes, plain.frames, plain.tasks, plain.microtasks, ?_⟩, ⟨rfl, fun busy => absurd noJobs busy⟩⟩
    intro job member
    have known : job ∈ Machine.jobs { stage.machine with clock := clock, pool := pool, poolEvent := none } := member
    rw [noJobs] at known
    cases known
  | waiting clock pool same _ =>
    refine ⟨sound.ledger, sound.depth, sound.waiting, sound.distinct, sound.bodies, ⟨sound.numbered.1, sound.numbered.2⟩,
      ⟨plain.classes, plain.frames, plain.tasks, plain.microtasks, ?_⟩,
      ⟨sound.served.events, fun _ => eventKnown⟩⟩
    exact fun job member => plain.jobs job (same.subset member)
  | ended clock pool jobs nonempty split =>
    have settles : ∀ job ∈ jobs, ∃ value, job.microtask = .settle job.task value := fun job member =>
      microtask_settles job (plain.jobs job (split.subset (List.mem_append_left _ member)))
    refine ⟨sound.ledger, sound.depth, ?_, sound.distinct, sound.bodies, ⟨sound.numbered.1, sound.numbered.2⟩,
      ⟨plain.classes, plain.frames, plain.tasks, ?_, ?_⟩, ⟨sound.served.events, fun _ => eventKnown⟩⟩
    · have frameless : (jobs.map Job.microtask).filterMap Microtask.frame? = [] := by
        refine List.filterMap_eq_nil_iff.mpr fun microtask member => ?_
        obtain ⟨job, jobMember, rfl⟩ := List.mem_map.mp member
        obtain ⟨value, same⟩ := settles job jobMember
        rw [same]
        rfl
      simp only [put, List.filterMap_append, frameless, List.append_nil]
      exact sound.waiting
    · intro microtask member
      rcases List.mem_append.mp member with old | new
      · exact plain.microtasks microtask old
      · obtain ⟨job, jobMember, rfl⟩ := List.mem_map.mp new
        obtain ⟨value, same⟩ := settles job jobMember
        exact .inr ⟨job.task, value, same⟩
    · exact fun job member => plain.jobs job (split.subset (List.mem_append_right _ member))

theorem poll_sound (stage : Stage) (engine : Engine) (id : EventId) (status : EventStatus)
    (after : Machine) (only : stage.machine.events = [(id, some .pollPool)])
    (served : engine.serviceEvent id .pollPool stage.machine = .done status after) (sound : stage.Sound) :
    (stage.put after).Sound := by
  obtain ⟨known, polled, done, polledHere, _⟩ := Exec.service_poll_done engine id stage.machine only
  rw [served] at done
  cases done
  exact polled_sound stage id status polled only polledHere sound

theorem create_task_sound (stage : Stage) (task : TaskId) (after : Machine)
    (created : Exec.createTask stage.machine = .done task after) (sound : stage.Sound) :
    (stage.put after).Sound := by
  cases created
  have plain := sound.plain
  exact ⟨sound.ledger, sound.depth, sound.waiting, sound.distinct, sound.bodies, ⟨sound.numbered.1, sound.numbered.2⟩,
    ⟨plain.classes, plain.frames, ready_created Value.Plain stage.machine.tasks plain.tasks, plain.microtasks, plain.jobs⟩,
    ⟨sound.served.1, sound.served.2⟩⟩

end Stage

theorem step_sound (stage after : Stage) (sound : stage.Sound) (step : Step stage after) : after.Sound := by
  cases step with
  | quiet _ output halted identity clock ready =>
    exact stage.quiet_sound output halted identity clock ready sound
  | adjust _ id change same => exact stage.adjust_sound id change same sound
  | alter _ id old frame found sameParent sameKind sameHolds plain =>
    exact stage.alter_sound id old frame found sameParent sameKind sameHolds plain sound
  | openCall _ caller id arguments after plain opened =>
    exact stage.open_call_sound caller id arguments after plain opened sound
  | beginRun frame task calls held machine => exact Stage.begin_run_sound frame task calls held machine sound
  | openBlock _ lines frame id after opened =>
    exact stage.open_block_sound lines frame id after opened sound
  | spawn _ name lines arguments caller promise after plain spawned =>
    exact stage.spawn_sound name lines arguments caller promise after plain spawned sound
  | startBody calls held machine task name lines frame rest next =>
    exact Stage.start_body_sound calls held machine task name lines frame rest next sound
  | settleBody frame task calls held value machine middle after plain released settled =>
    exact Stage.settled_sound calls held middle after task value plain settled
      (Stage.leave_call_sound frame (some task) calls held machine middle sound released)
  | settle _ task value rest after next settled =>
    exact Stage.settled_sound stage.calls stage.held _ after task _
      (stage.machine.classes.plain_scalar sound.plain.classes value) settled
      (stage.dequeued_sound task value rest next sound)
  | consume _ task value after consumed => exact stage.consume_sound task value after consumed sound
  | submit _ outcome milliseconds promise after spawned =>
    exact stage.submit_sound outcome milliseconds promise after spawned sound
  | poll _ engine id status after only served =>
    exact stage.poll_sound engine id status after only served sound
  | closing _ _ closed => exact stage.closing_sound after sound closed

theorem unwind_sound (stage after : Stage) (sound : stage.Sound) (unwind : Unwind stage after) :
    after.Sound := by
  cases unwind with
  | closing _ _ closed => exact stage.closing_sound after sound closed
  | dropBody frame task calls held machine after released =>
    exact Stage.leave_call_sound frame (some task) calls held machine after sound released
  | strand _ task after created => exact stage.create_task_sound task after created sound
  | discard _ task value rest next => exact stage.dequeued_sound task value rest next sound

end CoopScript
