import CoopScript.Proofs.Exit.Session

set_option autoImplicit false
namespace CoopScript

namespace TaskTable

variable (table : TaskTable) (task : TaskId)

theorem known_task (positive : 0 < task.number) (within : task.number ≤ table.count) :
    ∃ state, table.state? task = some state := by
  have place : task.number - 1 < table.states.size := by
    unfold count at within
    omega
  unfold state?
  rw [if_neg (Nat.ne_of_gt positive), Array.getElem?_eq_getElem place]
  exact ⟨_, rfl⟩

theorem consume_known (positive : 0 < task.number) (within : task.number ≤ table.count) (cause : Cause)
    (refused : table.consume task = .error cause) : cause = .alreadyAwaited task.number := by
  obtain ⟨state, known⟩ := table.known_task task positive within
  unfold consume at refused
  rw [known] at refused
  cases state with
  | pending | ready => cases refused
  | consumed =>
    cases refused
    rfl

end TaskTable

namespace Value

-- Every promise in the value is for one of the first tasks of this number.
inductive Within (count : Nat) : Value → Prop where
  | intro (value : Value) (members : ∀ entry ∈ value.members.entries, Within count entry.2)
      (items : ∀ identity items, value.data = .array identity items → ∀ item ∈ items, Within count item)
      (promise : ∀ task, value.data = .promise task → 0 < task.number ∧ task.number ≤ count) : Within count value

variable (count : Nat) (value : Value)

theorem within_more (more : Nat) (fewer : count ≤ more) (within : value.Within count) : value.Within more := by
  induction within with
  | intro value _ _ promise members items =>
    exact .intro value members items fun task same => ⟨(promise task same).1, (promise task same).2.trans fewer⟩

theorem within_member (within : value.Within count) (name : String) (member : Value)
    (found : value.member? name = some member) : member.Within count := by
  cases within with
  | intro _ members => exact NameMap.all_found (Within count) value.members members name member found

theorem within_data_items (within : value.Within count) (identity : Nat) (items : List Value)
    (data : value.data = .array identity items) : ∀ item ∈ items, item.Within count := by
  cases within with
  | intro _ _ all => exact all identity items data

theorem within_items (within : value.Within count) (items : List Value) (found : value.items? = some items) :
    ∀ item ∈ items, item.Within count := by
  unfold items? at found
  split at found
  next identity content data =>
    cases found
    exact within_data_items count value within identity items data
  next => cases found

theorem within_task (within : value.Within count) (task : TaskId) (found : value.task? = some task) :
    0 < task.number ∧ task.number ≤ count := by
  unfold task? at found
  split at found
  next content data =>
    cases found
    cases within with
    | intro _ _ _ promise => exact promise task data
  next => cases found

mutual

theorem native_within (value : Value) (native : value.native = true) : value.Within count := by
  obtain ⟨id, ⟨entries⟩, hidden, data⟩ := value
  unfold Value.native at native
  simp only [Bool.and_eq_true, Option.isSome_iff_exists] at native
  obtain ⟨⟨⟨code, known⟩, _⟩, all⟩ := native
  obtain ⟨_, function, same, _⟩ := builtin_runs _ code known
  unfold function? at same
  refine .intro _ (all_native_within entries all) (fun identity items array => ?_) fun task promise => ?_
  · obtain rfl : data = .array identity items := array
    cases same
  · obtain rfl : data = .promise task := promise
    cases same

theorem all_native_within (entries : List (String × Value)) (all : allNative entries = true) :
    ∀ entry ∈ entries, entry.2.Within count := by
  cases entries with
  | nil => exact List.forall_mem_nil _
  | cons first rest =>
    obtain ⟨name, value⟩ := first
    unfold allNative at all
    simp only [Bool.and_eq_true] at all
    exact List.forall_mem_cons.mpr ⟨native_within value all.1, all_native_within rest all.2⟩

end

end Value

namespace ClassTable
variable (count : Nat)

theorem within_instance (id : ClassId) (data : Data Value)
    (items : ∀ identity items, data = .array identity items → ∀ item ∈ items, item.Within count)
    (promise : ∀ task, data = .promise task → 0 < task.number ∧ task.number ≤ count) :
    (intrinsic.instantiate id data).Within count := by
  unfold instantiate
  cases found : intrinsic.get? id with
  | none => exact .intro _ (List.forall_mem_nil _) items promise
  | some info =>
    have told := intrinsic_tells id info found
    simp only [tells, Bool.and_eq_true] at told
    exact .intro _ (Value.all_native_within count _ told.1.1) items promise

theorem within_simple (id : ClassId) (data : Data Value) (simple : (∀ identity items, data ≠ .array identity items) ∧
    ∀ task, data ≠ .promise task) : (intrinsic.instantiate id data).Within count :=
  within_instance count id data (fun identity items same => absurd same (simple.1 identity items))
    fun task same => absurd same (simple.2 task)

theorem within_scalar (scalar : Scalar) : (intrinsic.scalar scalar).Within count := by
  cases scalar with
  | void => exact within_simple count .void .void (by simp)
  | number x => exact within_simple count .number (.number x) (by simp)
  | text text => exact within_simple count .string (.text text) (by simp)
  | flag flag => exact within_simple count .boolean (.flag flag) (by simp)

theorem within_array (identity : Nat) (items : List Value) (within : ∀ item ∈ items, item.Within count) :
    (intrinsic.array identity items).Within count :=
  within_instance count _ _ (fun _ _ same => by cases same; exact within) fun _ same => by cases same

theorem within_function (identity : Nat) (function : Function Value) :
    (intrinsic.function identity function).Within count :=
  within_simple count .function (.function identity function) (by simp)

theorem within_promise (task : TaskId) (positive : 0 < task.number) (within : task.number ≤ count) :
    (intrinsic.promise task).Within count :=
  within_instance count _ _ (fun _ _ same => by cases same) fun _ same => by cases same; exact ⟨positive, within⟩

end ClassTable

structure Frame.Within (count : Nat) (frame : Frame) : Prop where
  bindings : frame.bindings.All (Value.Within count)
  returned : ∀ value, frame.returned = some value → value.Within count

-- All promises that are kept anywhere are for tasks that there are.
structure Machine.Within (machine : Machine) : Prop where
  frames : machine.frames.Holds fun _ frame => frame.Within machine.tasks.count
  tasks : ∀ task value, machine.tasks.state? task = some (.ready value) → value.Within machine.tasks.count

namespace Arena
variable (count : Nat) (arena after : Arena) (within : arena.Holds fun _ frame => frame.Within count)

theorem frame_within_blind (_ : FrameId) (frame later : Frame) (same : SameFrame later frame)
    (within : frame.Within count) : later.Within count :=
  ⟨same.1 ▸ within.bindings, same.2.2.2 ▸ within.returned⟩

include within

theorem within_set_variable (id : FrameId) (name : String) (value : Value) (fine : value.Within count)
    (done : arena.setVariable id name value = .ok after) : after.Holds fun _ frame => frame.Within count := by
  obtain ⟨frame, found, rfl⟩ := update_done arena after id _ done
  have old := within id frame found
  exact holds_set _ arena within id frame _ found
    ⟨NameMap.all_insert _ frame.bindings old.bindings name value fine, old.returned⟩

theorem within_set_return (id : FrameId) (value : Value) (fine : value.Within count)
    (done : arena.setReturn id value = .ok after) : after.Holds fun _ frame => frame.Within count := by
  unfold setReturn at done
  split at done
  next function _ =>
    obtain ⟨frame, found, rfl⟩ := update_done arena after function _ done
    have old := within function frame found
    exact holds_set _ arena within function frame _ found ⟨old.bindings, fun other same => Option.some.inj same ▸ fine⟩
  next => cases done
  next => cases done

theorem within_cleared (id : FrameId) : (arena.cleared id).Holds fun _ frame => frame.Within count := by
  unfold cleared
  cases found : arena.frame? id with
  | none => exact within
  | some frame =>
    exact holds_set _ arena within id frame _ found ⟨(within id frame found).bindings, fun _ none => by cases none⟩

theorem within_result (id : FrameId) (value : Value) (result : arena.result? id = some value) : value.Within count := by
  obtain ⟨frame, found, returned⟩ := Option.bind_eq_some_iff.mp result
  exact (within id frame found).returned value returned

theorem within_shrinks (shrinks : arena.Shrinks after) : after.Holds fun _ frame => frame.Within count :=
  holds_shrinks _ arena after within (frame_within_blind count) shrinks

theorem within_retain (id : FrameId) (retained : arena.retain id = .ok after) :
    after.Holds fun _ frame => frame.Within count :=
  holds_retain _ arena after within (frame_within_blind count) id retained

theorem within_push (owners : List FrameId) (parent id : FrameId) (bindings : Bindings) (kept : arena.Kept owners)
    (fine : bindings.All (Value.Within count)) (pushed : arena.push parent true bindings = .ok (id, after)) :
    after.Holds fun _ frame => frame.Within count :=
  holds_push _ arena after within (frame_within_blind count) owners parent id true bindings kept
    ⟨fine, fun _ none => by cases none⟩ pushed

theorem within_more (more : Nat) (fewer : count ≤ more) : arena.Holds fun _ frame => frame.Within more :=
  fun id frame found =>
    have old := within id frame found
    ⟨fun entry member => entry.2.within_more count more fewer (old.bindings entry member),
      fun value returned => value.within_more count more fewer (old.returned value returned)⟩

end Arena

namespace Machine
variable (machine : Machine) (within : machine.Within)
include within

theorem within_frames (frames : Arena) (fine : frames.Holds fun _ frame => frame.Within machine.tasks.count) :
    { machine with frames := frames }.Within :=
  ⟨fine, within.tasks⟩

theorem within_settled (task : TaskId) (value : Value) (after : Machine) (fine : value.Within machine.tasks.count)
    (settled : Exec.settleTask task value machine = .done () after) :
    after.Within ∧ after.tasks.count = machine.tasks.count := by
  obtain ⟨tasks, done, rfl⟩ := Exec.settle_task_done task value machine after settled
  obtain ⟨_, changed⟩ := TaskTable.settle_done machine.tasks tasks task value done
  have same := TaskTable.count_settled machine.tasks tasks task value done
  refine ⟨⟨?_, ?_⟩, same⟩
  · show machine.frames.Holds fun _ frame => frame.Within tasks.count
    exact same ▸ within.frames
  · show ∀ task value, tasks.state? task = some (.ready value) → value.Within tasks.count
    rw [same]
    exact Stage.ready_changed _ machine.tasks tasks task (.ready value) within.tasks
      (fun other here => by cases here; exact fine) changed

theorem within_consumed (task : TaskId) (value : Option Value) (after : Machine)
    (consumed : Exec.consumeTask task machine = .done value after) :
    after.Within ∧ after.tasks.count = machine.tasks.count ∧
      ∀ result, value = some result → result.Within machine.tasks.count := by
  obtain ⟨tasks, done, rfl⟩ := Exec.consume_task_done task value machine after consumed
  have same := TaskTable.count_consumed machine.tasks tasks task value done
  cases value with
  | none =>
    obtain ⟨_, rfl⟩ := TaskTable.consume_waits machine.tasks tasks task done
    exact ⟨within, rfl, fun _ none => by cases none⟩
  | some value =>
    obtain ⟨ready, changed⟩ := TaskTable.consume_done machine.tasks tasks task value done
    refine ⟨⟨?_, ?_⟩, same, ?_⟩
    · show machine.frames.Holds fun _ frame => frame.Within tasks.count
      exact same ▸ within.frames
    · show ∀ task value, tasks.state? task = some (.ready value) → value.Within tasks.count
      rw [same]
      exact Stage.ready_changed _ machine.tasks tasks task .consumed within.tasks (fun other here => by cases here) changed
    · rintro result ⟨⟩
      exact within.tasks task value ready

theorem within_released (frame : FrameId) (after : Machine) (released : Exec.releaseFrame frame machine = .done () after) :
    after.Within ∧ after.tasks = machine.tasks := by
  obtain ⟨frames, rfl, shrinks⟩ := Exec.released_shrinks frame machine after released
  exact ⟨machine.within_frames within frames (machine.frames.within_shrinks _ frames within.frames shrinks), rfl⟩

theorem within_finished (id : RunnerId) (last : Option Value) (after : Machine)
    (finished : Exec.finishRunner id machine = .done last after) : after.Within ∧ after.tasks = machine.tasks := by
  rcases Exec.finish_runner_done id last machine after finished with ⟨_, rfl⟩ | ⟨runner, frames, _, released, rfl⟩
  · exact ⟨within, rfl⟩
  · have shrinks := Arena.release_chain_shrinks machine.frames machine.frames.reach runner.frame
    rw [show machine.frames.releaseChain machine.frames.reach runner.frame = _ from released] at shrinks
    exact ⟨⟨machine.frames.within_shrinks _ frames within.frames shrinks, within.tasks⟩, rfl⟩

theorem within_opened (lines : List Node) (frame : FrameId) (id : RunnerId) (after : Machine)
    (opened : Exec.createRunner lines frame machine = .done id after) : after.Within ∧ after.tasks = machine.tasks := by
  obtain ⟨frames, functionFrame, retained, _, _, rfl⟩ := Exec.create_runner_done lines frame id machine after opened
  exact ⟨⟨machine.frames.within_retain _ frames within.frames frame retained, within.tasks⟩, rfl⟩

theorem within_pushed (owners : List FrameId) (caller id : FrameId) (arguments : Bindings) (after : Machine)
    (kept : machine.frames.Kept owners) (fine : arguments.All (Value.Within machine.tasks.count))
    (pushed : Exec.pushFrame caller true arguments machine = .done id after) :
    after.Within ∧ after.tasks = machine.tasks := by
  obtain ⟨frames, framesPushed, rfl⟩ := Exec.push_frame_done caller id true arguments machine after pushed
  exact ⟨machine.within_frames within frames (machine.frames.within_push _ frames within.frames owners caller id
    arguments kept fine framesPushed), rfl⟩

theorem within_created : ∀ task value, machine.tasks.create.2.state? task = some (.ready value) →
    value.Within machine.tasks.create.2.count := fun task value ready =>
  value.within_more _ _ machine.tasks.count_created (Stage.ready_created _ machine.tasks within.tasks task value ready)

theorem within_spawned (owners : List FrameId) (name : String) (lines : List Node) (arguments : Bindings)
    (caller : FrameId) (promise : Value) (after : Machine) (kept : machine.frames.Kept owners)
    (classes : machine.classes = .intrinsic) (fine : arguments.All (Value.Within machine.tasks.count))
    (spawned : Exec.spawnAsync name lines arguments caller machine = .done promise after) :
    after.Within ∧ promise.Within after.tasks.count := by
  obtain ⟨frame, frames, pushed, rfl, rfl⟩ :=
    Exec.spawn_async_done name lines arguments caller promise machine after spawned
  have held := machine.frames.within_push _ frames within.frames owners caller frame arguments kept fine pushed
  refine ⟨⟨frames.within_more _ held _ machine.tasks.count_created, machine.within_created within⟩, ?_⟩
  rw [classes]
  exact ClassTable.within_promise _ _ machine.tasks.created_within.1 machine.tasks.created_within.2

theorem within_submitted (outcome : Scalar) (milliseconds : Nat) (promise : Value) (after : Machine)
    (classes : machine.classes = .intrinsic)
    (spawned : Exec.spawnBlocking (some outcome) milliseconds machine = .done promise after) :
    after.Within ∧ promise.Within after.tasks.count := by
  obtain ⟨pool, due, events, eventCount, event, rfl, rfl, _⟩ :=
    Exec.spawn_blocking_done (some outcome) milliseconds promise machine after spawned
  refine ⟨⟨machine.frames.within_more _ within.frames _ machine.tasks.count_created, machine.within_created within⟩, ?_⟩
  rw [classes]
  exact ClassTable.within_promise _ _ machine.tasks.created_within.1 machine.tasks.created_within.2

theorem within_advanced (id : RunnerId) (after : Machine) (moved : Exec.advance id machine = .done () after) :
    after.Within ∧ after.tasks = machine.tasks := by
  unfold Exec.advance at moved
  rw [Exec.read_then, Exec.read_then] at moved
  cases known : machine.runner? id with
  | none =>
    rw [known] at moved
    cases moved
    exact ⟨within, rfl⟩
  | some runner =>
    rw [known] at moved
    simp only at moved
    generalize (if machine.runnerReturned id then [] else runner.lines) = lines at moved
    cases lines <;> cases moved <;> exact ⟨⟨within.frames, within.tasks⟩, rfl⟩

end Machine

end CoopScript
