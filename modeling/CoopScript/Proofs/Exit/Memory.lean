import CoopScript.Proofs.Control.Result
import CoopScript.Proofs.Exit.Tame
import CoopScript.Proofs.Stage.Quiescence

set_option autoImplicit false
namespace CoopScript

-- Whether code that runs in a frame runs in a function. Scripts make no other frames than those of their calls.
def FrameId.isInner (frame : FrameId) : Bool := frame != Arena.root

theorem FrameId.other_inner (frame : FrameId) (other : frame ≠ Arena.root) : frame.isInner = true := by
  simpa [isInner] using other

structure Frame.Tame (leeway : Leeway) (id : FrameId) (frame : Frame) : Prop where
  bindings : frame.bindings.All (Value.Tame leeway)
  returned : ∀ value, frame.returned = some value → value.Tame leeway
  function : id.isInner = true → frame.isFunction = true

-- The body of a call that waits is that of a function of the same leeway.
def Microtask.Prudent (leeway : Leeway) (microtask : Microtask) : Prop :=
  ∀ task name lines frame, microtask = .asyncBody task name lines frame →
    frame.isInner = true ∧ Node.allPrudent leeway frame.isInner lines = true

def Runner.Prudent (leeway : Leeway) (runner : Runner) : Prop :=
  Node.allPrudent leeway runner.frame.isInner runner.lines = true

-- Lines are queued for programs only, which run in the outermost frame; no later runner gets such a line's number.
structure Line.Prudent (leeway : Leeway) (runners : List (RunnerId × Runner)) (count : Nat) (line : Line) : Prop where
  frame : line.frame = Arena.root
  node : line.node.prudent leeway line.frame.isInner = true
  known : line.runner.number ≤ count
  runner : ∀ entry ∈ runners, entry.1 = line.runner → entry.2.frame = Arena.root

structure Machine.Tame (leeway : Leeway) (machine : Machine) : Prop where
  classes : machine.classes = .intrinsic
  frames : machine.frames.Holds (Frame.Tame leeway)
  tasks : ∀ task value, machine.tasks.state? task = some (.ready value) → value.Tame leeway
  microtasks : ∀ microtask ∈ machine.microtasks, microtask.Prudent leeway
  runners : ∀ entry ∈ machine.runners, entry.2.Prudent leeway
  ready : ∀ line ∈ machine.ready, line.Prudent leeway machine.runners machine.runnerCount

variable (leeway : Leeway)

namespace Frame

theorem tame_blind (id : FrameId) (frame later : Frame) (same : Arena.SameFrame later frame)
    (tame : frame.Tame leeway id) : later.Tame leeway id :=
  ⟨same.1 ▸ tame.bindings, same.2.2.2 ▸ tame.returned, fun inner => same.2.2.1.trans (tame.function inner)⟩

theorem tame_fresh (id : FrameId) (parent : Option FrameId) (bindings : Bindings)
    (tame : bindings.All (Value.Tame leeway)) : (fresh parent true bindings).Tame leeway id :=
  ⟨tame, (fun _ none => by cases none), fun _ => rfl⟩

end Frame

namespace Arena
variable (arena after : Arena) (tame : arena.Holds (Frame.Tame leeway))
include tame

theorem tame_set_variable (id : FrameId) (name : String) (value : Value) (valueTame : value.Tame leeway)
    (done : arena.setVariable id name value = .ok after) : after.Holds (Frame.Tame leeway) := by
  obtain ⟨frame, found, rfl⟩ := update_done arena after id _ done
  have old := tame id frame found
  exact holds_set _ arena tame id frame _ found
    ⟨NameMap.all_insert _ frame.bindings old.bindings name value valueTame, old.returned, old.function⟩

theorem tame_set_return (id : FrameId) (value : Value) (valueTame : value.Tame leeway)
    (done : arena.setReturn id value = .ok after) : after.Holds (Frame.Tame leeway) := by
  unfold setReturn at done
  split at done
  next function _ =>
    obtain ⟨frame, found, rfl⟩ := update_done arena after function _ done
    have old := tame function frame found
    exact holds_set _ arena tame function frame _ found
      ⟨old.bindings, fun other same => Option.some.inj same ▸ valueTame, old.function⟩
  next => cases done
  next => cases done

theorem tame_cleared (id : FrameId) : (arena.cleared id).Holds (Frame.Tame leeway) := by
  unfold cleared
  cases found : arena.frame? id with
  | none => exact tame
  | some frame =>
    have old := tame id frame found
    exact holds_set _ arena tame id frame _ found ⟨old.bindings, (fun _ none => by cases none), old.function⟩

theorem tame_result (id : FrameId) (value : Value) (result : arena.result? id = some value) : value.Tame leeway := by
  obtain ⟨frame, found, returned⟩ := Option.bind_eq_some_iff.mp result
  exact (tame id frame found).returned value returned

theorem tame_shrinks (shrinks : arena.Shrinks after) : after.Holds (Frame.Tame leeway) :=
  holds_shrinks _ arena after tame (Frame.tame_blind leeway) shrinks

theorem tame_retain (id : FrameId) (retained : arena.retain id = .ok after) : after.Holds (Frame.Tame leeway) :=
  holds_retain _ arena after tame (Frame.tame_blind leeway) id retained

theorem tame_push (owners : List FrameId) (parent id : FrameId) (bindings : Bindings) (kept : arena.Kept owners)
    (bindingsTame : bindings.All (Value.Tame leeway)) (pushed : arena.push parent true bindings = .ok (id, after)) :
    after.Holds (Frame.Tame leeway) :=
  holds_push _ arena after tame (Frame.tame_blind leeway) owners parent id true bindings kept
    (Frame.tame_fresh leeway id (some parent) bindings bindingsTame) pushed

end Arena

namespace Machine
variable (machine : Machine) (tame : machine.Tame leeway)
include tame

theorem tame_frames (frames : Arena) (framesTame : frames.Holds (Frame.Tame leeway)) :
    { machine with frames := frames }.Tame leeway :=
  ⟨tame.classes, framesTame, tame.tasks, tame.microtasks, tame.runners, tame.ready⟩

theorem tame_tasks (tasks : TaskTable)
    (tasksTame : ∀ task value, tasks.state? task = some (.ready value) → value.Tame leeway) :
    { machine with tasks := tasks }.Tame leeway :=
  ⟨tame.classes, tame.frames, tasksTame, tame.microtasks, tame.runners, tame.ready⟩

theorem tame_settled (task : TaskId) (value : Value) (after : Machine) (valueTame : value.Tame leeway)
    (settled : Exec.settleTask task value machine = .done () after) : after.Tame leeway := by
  obtain ⟨tasks, done, rfl⟩ := Exec.settle_task_done task value machine after settled
  obtain ⟨_, changed⟩ := TaskTable.settle_done machine.tasks tasks task value done
  exact machine.tame_tasks leeway tame tasks (Stage.ready_changed _ machine.tasks tasks task (.ready value) tame.tasks
    (fun other same => by cases same; exact valueTame) changed)

theorem tame_consumed (task : TaskId) (value : Option Value) (after : Machine)
    (consumed : Exec.consumeTask task machine = .done value after) :
    after.Tame leeway ∧ ∀ result, value = some result → result.Tame leeway := by
  obtain ⟨tasks, done, rfl⟩ := Exec.consume_task_done task value machine after consumed
  cases value with
  | none =>
    obtain ⟨_, rfl⟩ := TaskTable.consume_waits machine.tasks tasks task done
    exact ⟨tame, fun _ none => by cases none⟩
  | some value =>
    obtain ⟨ready, changed⟩ := TaskTable.consume_done machine.tasks tasks task value done
    refine ⟨machine.tame_tasks leeway tame tasks (Stage.ready_changed _ machine.tasks tasks task .consumed tame.tasks
      (fun other same => by cases same) changed), ?_⟩
    rintro result ⟨⟩
    exact tame.tasks task value ready

theorem tame_updated (id : RunnerId) (change : Runner → Runner)
    (same : ∀ runner, (change runner).frame = runner.frame)
    (prudent : ∀ runner, machine.runner? id = some runner → (change runner).Prudent leeway)
    (distinct : (machine.runners.map Prod.fst).Nodup) : (machine.updateRunner id change).Tame leeway := by
  refine ⟨tame.classes, tame.frames, tame.tasks, tame.microtasks, fun entry member => ?_, fun line member => ?_⟩
  · obtain ⟨old, oldMember, rfl⟩ := List.mem_map.mp member
    by_cases here : old.1 = id
    · rw [if_pos here]
      exact prudent old.2 (machine.runner_listed id old.2 distinct (here ▸ oldMember))
    · rw [if_neg here]
      exact tame.runners old oldMember
  · have lineTame := tame.ready line member
    refine ⟨lineTame.frame, lineTame.node, lineTame.known, fun entry entryMember => ?_⟩
    obtain ⟨old, oldMember, rfl⟩ := List.mem_map.mp entryMember
    have before := lineTame.runner old oldMember
    split
    · exact fun named => (same old.2).trans (before named)
    · exact before

theorem tame_finished (id : RunnerId) (last : Option Value) (after : Machine)
    (finished : Exec.finishRunner id machine = .done last after) :
    after.Tame leeway ∧ after.halted = machine.halted := by
  rcases Exec.finish_runner_done id last machine after finished with ⟨_, rfl⟩ | ⟨runner, frames, known, released, rfl⟩
  · exact ⟨tame, rfl⟩
  · have erased := swap_erase_perm id runner machine.runners (machine.runner_found id runner known)
    have shrinks := Arena.release_chain_shrinks machine.frames machine.frames.reach runner.frame
    rw [show machine.frames.releaseChain machine.frames.reach runner.frame = _ from released] at shrinks
    have earlier : ∀ entry ∈ swapErase id machine.runners, entry ∈ machine.runners :=
      fun entry member => erased.subset (List.mem_cons_of_mem _ member)
    refine ⟨⟨tame.classes, machine.frames.tame_shrinks leeway frames tame.frames shrinks, tame.tasks, tame.microtasks,
      fun entry member => tame.runners entry (earlier entry member), fun line member => ?_⟩, rfl⟩
    have lineTame := tame.ready line member
    exact ⟨lineTame.frame, lineTame.node, lineTame.known,
      fun entry entryMember => lineTame.runner entry (earlier entry entryMember)⟩

theorem tame_released (frame : FrameId) (after : Machine) (released : Exec.releaseFrame frame machine = .done () after) :
    after.Tame leeway ∧ after.halted = machine.halted := by
  obtain ⟨frames, rfl, shrinks⟩ := Exec.released_shrinks frame machine after released
  exact ⟨machine.tame_frames leeway tame frames (machine.frames.tame_shrinks leeway frames tame.frames shrinks), rfl⟩

theorem tame_opened (lines : List Node) (frame : FrameId) (id : RunnerId) (after : Machine)
    (prudent : Node.allPrudent leeway frame.isInner lines = true)
    (opened : Exec.createRunner lines frame machine = .done id after) :
    after.Tame leeway ∧ after.halted = machine.halted := by
  obtain ⟨frames, functionFrame, retained, _, fresh, rfl⟩ :=
    Exec.create_runner_done lines frame id machine after opened
  refine ⟨⟨tame.classes, machine.frames.tame_retain leeway frames tame.frames frame retained, tame.tasks,
    tame.microtasks, fun entry member => ?_, fun line member => ?_⟩, rfl⟩
  · rcases List.mem_append.mp member with old | new
    · exact tame.runners entry old
    · obtain rfl := List.mem_singleton.mp new
      exact prudent
  · have lineTame := tame.ready line member
    have known := lineTame.known
    refine ⟨lineTame.frame, lineTame.node, Nat.le_succ_of_le known, fun entry entryMember named => ?_⟩
    rcases List.mem_append.mp entryMember with old | new
    · exact lineTame.runner entry old named
    · obtain rfl := List.mem_singleton.mp new
      rw [← named, fresh] at known
      exact absurd known (Nat.not_succ_le_self _)

theorem tame_pushed (owners : List FrameId) (caller id : FrameId) (arguments : Bindings) (after : Machine)
    (kept : machine.frames.Kept owners) (argumentsTame : arguments.All (Value.Tame leeway))
    (pushed : Exec.pushFrame caller true arguments machine = .done id after) :
    after.Tame leeway ∧ after.halted = machine.halted := by
  obtain ⟨frames, framesPushed, rfl⟩ := Exec.push_frame_done caller id true arguments machine after pushed
  exact ⟨machine.tame_frames leeway tame frames (machine.frames.tame_push leeway frames tame.frames owners caller id
    arguments kept argumentsTame framesPushed), rfl⟩

theorem tame_spawned (owners : List FrameId) (name : String) (lines : List Node) (arguments : Bindings)
    (caller : FrameId) (promise : Value) (after : Machine) (kept : machine.frames.Kept owners)
    (rooted : machine.frames.isLive Arena.root = true) (argumentsTame : arguments.All (Value.Tame leeway))
    (prudent : Node.allPrudent leeway true lines = true)
    (spawned : Exec.spawnAsync name lines arguments caller machine = .done promise after) :
    after.Tame leeway ∧ after.halted = machine.halted ∧ promise.Tame leeway := by
  obtain ⟨frame, frames, pushed, rfl, rfl⟩ :=
    Exec.spawn_async_done name lines arguments caller promise machine after spawned
  obtain ⟨fresh, _⟩ := Arena.push_found machine.frames frames owners caller frame true arguments kept pushed
  have inner : frame.isInner = true := by
    apply frame.other_inner
    rintro rfl
    simp [Arena.isLive, fresh] at rooted
  refine ⟨⟨tame.classes, machine.frames.tame_push leeway frames tame.frames owners caller frame arguments kept
    argumentsTame pushed, Stage.ready_created _ machine.tasks tame.tasks, ?_, tame.runners, tame.ready⟩, rfl, ?_⟩
  · intro microtask member
    rcases List.mem_append.mp member with old | new
    · exact tame.microtasks microtask old
    · obtain rfl := List.mem_singleton.mp new
      rintro _ _ _ _ ⟨⟩
      exact ⟨inner, inner ▸ prudent⟩
  · rw [tame.classes]
    exact ClassTable.tame_promise leeway _

theorem tame_submitted (outcome : Scalar) (milliseconds : Nat) (promise : Value) (after : Machine)
    (spawned : Exec.spawnBlocking (some outcome) milliseconds machine = .done promise after) :
    after.Tame leeway ∧ after.halted = machine.halted ∧ promise.Tame leeway := by
  obtain ⟨pool, due, events, eventCount, event, rfl, rfl, _⟩ :=
    Exec.spawn_blocking_done (some outcome) milliseconds promise machine after spawned
  refine ⟨⟨tame.classes, tame.frames, Stage.ready_created _ machine.tasks tame.tasks, tame.microtasks, tame.runners,
    tame.ready⟩, rfl, ?_⟩
  rw [tame.classes]
  exact ClassTable.tame_promise leeway _

theorem tame_polled (status : EventStatus) (polled : Machine) (done : Exec.Polled machine status polled)
    (events : List (EventId × Option Microevent)) :
    { polled with events := events }.Tame leeway ∧ polled.halted = machine.halted := by
  cases done with
  | forgotten | waiting =>
    exact ⟨⟨tame.classes, tame.frames, tame.tasks, tame.microtasks, tame.runners, tame.ready⟩, rfl⟩
  | ended clock pool jobs _ _ =>
    refine ⟨⟨tame.classes, tame.frames, tame.tasks, fun microtask member => ?_, tame.runners, tame.ready⟩, rfl⟩
    rcases List.mem_append.mp member with old | new
    · exact tame.microtasks microtask old
    · obtain ⟨job, _, rfl⟩ := List.mem_map.mp new
      rintro _ _ _ _ same
      unfold Job.microtask at same
      cases outcome : job.outcome <;> rw [outcome] at same <;> cases same

theorem tame_advanced (id : RunnerId) (after : Machine) (numbered : machine.Numbered)
    (rooted : ∀ runner, machine.runner? id = some runner → runner.frame = Arena.root)
    (moved : Exec.advance id machine = .done () after) : after.Tame leeway := by
  unfold Exec.advance at moved
  rw [Exec.read_then, Exec.read_then] at moved
  cases known : machine.runner? id with
  | none =>
    rw [known] at moved
    cases moved
    exact tame
  | some runner =>
    rw [known] at moved
    simp only at moved
    have listed := List.mem_of_find?_eq_some (machine.runner_found id runner known)
    have prudent : runner.Prudent leeway := tame.runners (id, runner) listed
    generalize queue : (if machine.runnerReturned id then [] else runner.lines) = lines at moved
    cases lines with
    | nil =>
      cases moved
      exact machine.tame_updated leeway tame id _ (fun _ => rfl) (fun _ _ => rfl) numbered.distinct
    | cons node rest =>
      have own : runner.lines = node :: rest := by
        split at queue
        · cases queue
        · exact queue
      rw [Runner.Prudent, own, Node.allPrudent, Bool.and_eq_true] at prudent
      cases moved
      have updated := machine.tame_updated leeway tame id (fun runner => { runner with lines := rest }) (fun _ => rfl)
        (fun other same => by
          obtain rfl := Option.some.inj (known.symm.trans same)
          exact prudent.2) numbered.distinct
      refine ⟨updated.classes, updated.frames, updated.tasks, updated.microtasks, updated.runners, fun line member => ?_⟩
      rcases List.mem_append.mp member with old | new
      · exact updated.ready line old
      · obtain rfl := List.mem_singleton.mp new
        refine ⟨rooted runner known, prudent.1, numbered.bounded _ listed, fun entry entryMember named => ?_⟩
        obtain ⟨old, oldMember, rfl⟩ := List.mem_map.mp entryMember
        have same : old.1 = id := by
          split at named <;> exact named
        have oldRooted := rooted old.2 (machine.runner_listed id old.2 numbered.distinct (same ▸ oldMember))
        rw [if_pos same]
        exact oldRooted

end Machine

end CoopScript
