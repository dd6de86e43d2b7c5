import CoopScript.Proofs.Control.Mirror
import CoopScript.Proofs.Stage.Language

/-!
Steps that write in their own frame only. A step of a function's body, or of a body that it waits for, spares every
frame that was in use before the function's own: what is bound there stays, and so do the lines that are ready.
-/
set_option autoImplicit false
namespace CoopScript

-- Frames that are spared and live on have the bindings that they had.
def Arena.Unwritten (spared : FrameId → Prop) (before after : Arena) : Prop :=
  ∀ id frame later, spared id → before.frame? id = some frame → after.frame? id = some later →
    later.bindings = frame.bindings

structure Machine.Spares (spared : FrameId → Prop) (before after : Machine) : Prop where
  ready : after.ready = before.ready
  frames : before.frames.Unwritten spared after.frames
  waiting : ∀ id ∈ after.asyncFrames, spared id → id ∈ before.asyncFrames

namespace Arena
variable (spared : FrameId → Prop) (arena after : Arena)

theorem unwritten_refl : arena.Unwritten spared arena := by
  intro id frame later _ found again
  obtain rfl := Option.some.inj (found.symm.trans again)
  rfl

theorem unwritten_set (id : FrameId) (old frame : Frame) (found : arena.frame? id = some old)
    (same : spared id → frame.bindings = old.bindings) : arena.Unwritten spared (arena.setFrame id.index frame) := by
  intro other before later isSpared read reread
  rw [frame_set arena id other old frame found] at reread
  split at reread
  next here =>
    subst here
    cases reread
    obtain rfl := Option.some.inj (found.symm.trans read)
    exact same isSpared
  next => exact unwritten_refl spared arena other before later isSpared read reread

theorem unwritten_shrinks (shrinks : arena.Shrinks after) : arena.Unwritten spared after := by
  intro id frame later _ found reread
  obtain ⟨earlier, earlierFound, same⟩ := shrinks id later reread
  obtain rfl := Option.some.inj (found.symm.trans earlierFound)
  exact same.1

theorem unwritten_retain (id : FrameId) (retained : arena.retain id = .ok after) : arena.Unwritten spared after := by
  obtain ⟨frame, found, rfl⟩ := retain_found arena after id retained
  exact unwritten_set spared arena id frame _ found fun _ => rfl

theorem unwritten_push (owners : List FrameId) (parent id : FrameId) (isFunction : Bool) (bindings : Bindings)
    (kept : arena.Kept owners) (pushed : arena.push parent isFunction bindings = .ok (id, after)) :
    arena.Unwritten spared after := by
  obtain ⟨fresh, old, oldFound, read⟩ := push_found arena after owners parent id isFunction bindings kept pushed
  intro other frame later _ found reread
  rw [read] at reread
  split at reread
  next same =>
    rw [same, fresh] at found
    cases found
  next =>
    split at reread
    next same =>
      cases reread
      rw [same] at found
      obtain rfl := Option.some.inj (oldFound.symm.trans found)
      rfl
    next =>
      obtain rfl := Option.some.inj (found.symm.trans reread)
      rfl

end Arena

namespace Machine
variable (spared : FrameId → Prop) (machine : Machine)

theorem spares_refl : machine.Spares spared machine :=
  ⟨rfl, Arena.unwritten_refl spared machine.frames, fun _ member _ => member⟩

theorem spares_frames (frames : Arena) (unwritten : machine.frames.Unwritten spared frames) :
    machine.Spares spared { machine with frames := frames } := ⟨rfl, unwritten, fun _ member _ => member⟩

theorem spares_trans (middle after : Machine) (live : ∀ id, spared id → middle.frames.isLive id = true)
    (first : machine.Spares spared middle) (second : middle.Spares spared after) : machine.Spares spared after := by
  refine ⟨second.ready.trans first.ready, fun id frame later isSpared found again => ?_,
    fun id member isSpared => first.waiting id (second.waiting id member isSpared) isSpared⟩
  obtain ⟨between, betweenFound⟩ := (Arena.live_found middle.frames id).mp (live id isSpared)
  exact (second.frames id between later isSpared betweenFound again).trans
    (first.frames id frame between isSpared found betweenFound)

end Machine

namespace Stage

-- What runs in the frame of a function. The spared frames are in use by others, and no body that is yet to be started
-- writes in them.
structure Apart (spared : FrameId → Prop) (frame : FrameId) (stage : Stage) : Prop where
  inside : stage.Inside frame
  own : ¬ spared frame
  kept : ∀ id, spared id → ∃ owner ∈ stage.firm, stage.machine.frames.Encloses id owner
  waiting : ∀ id ∈ stage.machine.asyncFrames, ¬ spared id

def Guards {α : Type} (spared : FrameId → Prop) (good : α → Prop) (stage : Stage) (step : Exec α) : Prop :=
  stage.Follows good step ∧ ∀ after, (step stage.machine).Leaves after → stage.machine.Spares spared after

theorem guards_read {α β : Type} {spared : FrameId → Prop} {good : α → Prop} (stage : Stage) (sound : stage.Sound)
    (view : Machine → β) (next : β → Exec α) (guards : stage.Guards spared good (next (view stage.machine))) :
    stage.Guards spared good (Exec.read view >>= next) :=
  ⟨Exec.follows_look stage sound good view next guards.1, guards.2⟩

section Apart
variable {α β : Type} {spared : FrameId → Prop} {frame : FrameId} {good : α → Prop} {fine : β → Prop} (stage : Stage)
  (apart : stage.Apart spared frame)
include apart

theorem apart_live (id : FrameId) (isSpared : spared id) : stage.machine.frames.isLive id = true := by
  obtain ⟨owner, _, encloses⟩ := apart.kept id isSpared
  exact (Arena.encloses_live _ _ _ encloses).1

-- A function's body goes on apart from the spared frames if what is done spares them.
theorem apart_after (step : Exec α) (after : Machine) (follows : stage.Follows good step)
    (left : (step stage.machine).Leaves after) (spares : stage.machine.Spares spared after) :
    (stage.put after).Apart spared frame := by
  have sound := apart.inside.sound
  have afterSound := stage.follows_sound good step after sound follows left
  have registered := stage.follows_registered good step after follows left
  have steady := stage.follows_steady good step after sound follows left
  refine ⟨⟨afterSound, (stage.firm_put after registered frame).mpr apart.inside.member, fun later found => ?_⟩,
    apart.own, fun id isSpared => ?_, fun id member isSpared =>
      apart.waiting id (spares.waiting id member isSpared) isSpared⟩
  · obtain ⟨content, known, function⟩ := stage.inside_found frame apart.inside
    have live := stage.firm_live sound frame apart.inside.member
    exact (steady.same frame apart.inside.member frame (.self live) content later known found).2.trans function
  · obtain ⟨owner, firm, encloses⟩ := apart.kept id isSpared
    exact ⟨owner, (stage.firm_put after registered owner).mpr firm, (steady.around owner firm id).mp encloses⟩

theorem guards_apart (step : Exec α) (after : Machine) (guards : stage.Guards spared good step)
    (left : (step stage.machine).Leaves after) : (stage.put after).Apart spared frame :=
  stage.apart_after apart step after guards.1 left (guards.2 after left)

-- What a sequence spares, when it is known otherwise that it follows the steps of a script.
theorem spares_bind (first : Exec α) (next : α → Exec β) (guards : stage.Guards spared good first)
    (later : ∀ value machine, first stage.machine = .done value machine → stage.Reaches first machine → good value →
      (stage.put machine).Apart spared frame → ∀ after, (next value machine).Leaves after →
      machine.Spares spared after)
    (after : Machine) (left : ((first >>= next) stage.machine).Leaves after) : stage.machine.Spares spared after := by
  rcases Exec.leaves_bind first next stage.machine after left with failed | ⟨value, middle, done, rest⟩
  · exact guards.2 after failed
  · have leftMiddle : (first stage.machine).Leaves middle := .inl ⟨value, done⟩
    have follows := guards.1
    unfold Follows at follows
    rw [done] at follows
    have middleApart := stage.guards_apart apart first middle guards leftMiddle
    exact stage.machine.spares_trans spared middle after ((stage.put middle).apart_live middleApart)
      (guards.2 middle leftMiddle) (later value middle done follows.1 follows.2 middleApart after rest)

theorem guards_bind (first : Exec α) (next : α → Exec β) (guards : stage.Guards spared good first)
    (later : ∀ value machine, first stage.machine = .done value machine → stage.Reaches first machine → good value →
      (stage.put machine).Apart spared frame → (stage.put machine).Guards spared fine (next value)) :
    stage.Guards spared fine (first >>= next) := by
  constructor
  · refine Exec.follows_bind stage apart.inside.sound good fine first next guards.1 ?_
    intro value machine done reaches goodValue _
    have machineApart := stage.guards_apart apart first machine guards (.inl ⟨value, done⟩)
    exact (later value machine done reaches goodValue machineApart).1
  · refine stage.spares_bind apart first next guards ?_
    exact fun value machine done reaches goodValue machineApart =>
      (later value machine done reaches goodValue machineApart).2

end Apart

end Stage

-- The step is one of a function's body and spares what is apart from that function's frame.
def Exec.Discreet {α : Type} (frame : FrameId) (good : α → Prop) (step : Exec α) : Prop :=
  ∀ spared stage, Stage.Apart spared frame stage → stage.Guards spared good step

namespace Exec
variable {α β σ : Type} {frame : FrameId} {good : α → Prop} {fine : β → Prop}

theorem discreet_bind (step : Exec α) (next : α → Exec β) (discreet : step.Discreet frame good)
    (later : ∀ value, good value → (next value).Discreet frame fine) : (step >>= next).Discreet frame fine := by
  intro spared stage apart
  refine stage.guards_bind apart step next (discreet spared stage apart) ?_
  exact fun value machine _ _ goodValue machineApart => later value goodValue spared _ machineApart

-- A lawful step that neither writes in a frame nor readies a line nor leaves a body waiting.
theorem discreet_blind (step : Exec α) (lawful : step.Lawful good)
    (blind : ∀ machine after, (step machine).Leaves after →
      after.frames = machine.frames ∧ after.ready = machine.ready ∧ after.asyncFrames = machine.asyncFrames) :
    step.Discreet frame good := by
  intro spared stage apart
  refine ⟨lawful stage apart.inside.sound, fun after left => ?_⟩
  obtain ⟨frames, ready, waiting⟩ := blind stage.machine after left
  exact ⟨ready, frames ▸ Arena.unwritten_refl spared _, fun id member _ => waiting ▸ member⟩

theorem discreet_pure (value : α) (fineValue : good value) : Discreet frame good (Pure.pure value : Exec α) := by
  refine discreet_blind _ (lawful_pure good value fineValue) ?_
  rintro machine after (⟨_, same⟩ | ⟨_, same⟩) <;> cases same
  exact ⟨rfl, rfl, rfl⟩

theorem discreet_read (view : Machine → α) (fineView : ∀ stage : Stage, stage.Sound → good (view stage.machine)) :
    (read view).Discreet frame good := by
  refine discreet_blind _ (lawful_read good view fineView) ?_
  rintro machine after (⟨_, same⟩ | ⟨_, same⟩) <;> cases same
  exact ⟨rfl, rfl, rfl⟩

theorem discreet_seen (view : Machine → α) : (read view).Discreet frame fun _ => True :=
  discreet_read view fun _ _ => trivial

theorem discreet_raise (failure : Failure) (other : ¬ failure.IsStranding) :
    Discreet frame good (raise failure : Exec α) := by
  refine discreet_blind _ (lawful_raise good failure other) ?_
  rintro machine after (⟨_, same⟩ | ⟨_, same⟩) <;> cases same
  exact ⟨rfl, rfl, rfl⟩

theorem discreet_fail (cause : Cause) (other : cause.isStranding = false) :
    Discreet frame good (fail cause : Exec α) := discreet_raise _ (not_stranding cause other)

theorem discreet_fail_at (cause : Cause) (position : Position) (other : cause.isStranding = false) :
    Discreet frame good (failAt cause position : Exec α) :=
  discreet_raise _ (not_stranding_located cause position other)

theorem discreet_exhausted : Discreet frame good (exhausted : Exec α) := by
  refine discreet_blind _ (lawful_exhausted good) ?_
  rintro machine after (⟨_, same⟩ | ⟨_, same⟩) <;> cases same

theorem discreet_weaken {better : α → Prop} (step : Exec α) (discreet : step.Discreet frame better)
    (weaker : ∀ value, better value → good value) : step.Discreet frame good := by
  intro spared stage apart
  obtain ⟨follows, spares⟩ := discreet spared stage apart
  exact ⟨follows_weaken stage better step good follows weaker, spares⟩

theorem discreet_map_failure (change : Failure → Failure) (step : Exec α)
    (sameCause : ∀ failure cause, (change failure).HasCause cause → failure.HasCause cause)
    (discreet : step.Discreet frame good) : (step.mapFailure change).Discreet frame good := by
  intro spared stage apart
  obtain ⟨follows, spares⟩ := discreet spared stage apart
  refine ⟨follows_map_failure stage good change step sameCause follows, ?_⟩
  exact fun after left => spares after (leaves_map_failure step stage.machine after change left)

theorem discreet_iterate (step : σ → Exec (σ ⊕ α))
    (discreet : ∀ state, (step state).Discreet frame (Sum.elim (fun _ => True) good)) (fuel : Nat) (state : σ) :
    (iterate step fuel state).Discreet frame good := by
  induction fuel generalizing state with
  | zero => exact discreet_exhausted
  | succ fuel ih =>
    rw [iterate_unrolled]
    apply discreet_bind _ _ (discreet state)
    intro result fineResult
    cases result with
    | inl state => exact ih state
    | inr value => exact discreet_pure value fineResult

end Exec

namespace Arena

-- In the frame of a function the search for a name to assign to ends where it begins.
theorem target_own (arena : Arena) (id : FrameId) (name : String) (frame : Frame) (found : arena.frame? id = some frame)
    (function : frame.isFunction = true) : arena.target id name = .ok id := by
  simp only [target, search, reach, searchChain, found, function, if_true]
  split
  · rename_i answer asked
    split at asked <;> cases asked <;> rfl
  · rename_i asked
    split at asked <;> cases asked

end Arena

namespace Exec
variable {α : Type} {frame : FrameId} {good : α → Prop}

theorem ask_leaves (ask : Arena → Except Cause α) (machine after : Machine)
    (left : (askFrames ask machine).Leaves after) : after = machine := by
  unfold askFrames at left
  split at left <;> rcases left with ⟨_, same⟩ | ⟨_, same⟩ <;> cases same <;> rfl

theorem discreet_ask (ask : Arena → Except Cause α) (lawful : (askFrames ask).Lawful good) :
    (askFrames ask).Discreet frame good := by
  refine discreet_blind _ lawful fun machine after left => ?_
  obtain rfl := ask_leaves ask machine after left
  exact ⟨rfl, rfl, rfl⟩

theorem discreet_look_up (name : String) : (lookUp frame name).Discreet frame Value.Plain :=
  discreet_ask _ (lawful_look_up frame name)

theorem discreet_update (change : Arena → Except Cause Arena) (lawful : (updateFrames change).Lawful fun _ => True)
    (unwritten : ∀ (spared : FrameId → Prop) (stage : Stage) after, stage.Apart spared frame →
      change stage.machine.frames = .ok after → stage.machine.frames.Unwritten spared after) :
    (updateFrames change).Discreet frame fun _ => True := by
  intro spared stage apart
  refine ⟨lawful stage apart.inside.sound, fun after left => ?_⟩
  unfold updateFrames at left
  split at left
  next frames changed =>
    rcases left with ⟨_, same⟩ | ⟨_, same⟩ <;> cases same
    exact stage.machine.spares_frames spared frames (unwritten spared stage frames apart changed)
  next =>
    rcases left with ⟨_, same⟩ | ⟨_, same⟩ <;> cases same
    exact stage.machine.spares_refl spared

theorem set_variable_unwritten (spared : FrameId → Prop) (arena after : Arena) (name : String) (value : Value)
    (own : ¬ spared frame) (done : arena.setVariable frame name value = .ok after) :
    arena.Unwritten spared after := by
  obtain ⟨content, found, rfl⟩ := Arena.update_done arena after frame _ done
  exact Arena.unwritten_set spared arena frame content _ found fun isSpared => absurd isSpared own

theorem discreet_set_variable (name : String) (value : Value) (plain : value.Plain) :
    (setVariable frame name value).Discreet frame fun _ => True :=
  discreet_update _ (lawful_set_variable frame name value plain) fun spared _ after apart done =>
    set_variable_unwritten spared _ after name value apart.own done

theorem discreet_assign (name : String) (value : Value) (plain : value.Plain) :
    (assign frame name value).Discreet frame fun _ => True := by
  refine discreet_update _ (lawful_assign frame name value plain) fun spared stage after apart done => ?_
  obtain ⟨content, found, function⟩ := stage.inside_found frame apart.inside
  rw [Arena.assign, Arena.target_own _ frame name content found function] at done
  exact set_variable_unwritten spared _ after name value apart.own done

theorem discreet_set_return (value : Value) (plain : value.Plain) :
    (setReturn frame value).Discreet frame fun _ => True := by
  refine discreet_update _ (lawful_set_return frame value plain) fun spared stage after _ done => ?_
  unfold Arena.setReturn at done
  split at done
  next function _ =>
    obtain ⟨content, found, rfl⟩ := Arena.update_done _ after function _ done
    exact Arena.unwritten_set spared _ function content _ found fun _ => rfl
  next => cases done
  next => cases done

theorem discreet_take_return :
    (takeReturn frame).Discreet frame fun result => ∀ value, result = some value → value.Plain := by
  intro spared stage apart
  refine ⟨lawful_take_return frame stage apart.inside.sound, fun after left => ?_⟩
  unfold takeReturn changeFrames at left
  split at left
  next value frames taken =>
    rcases left with ⟨_, same⟩ | ⟨_, same⟩ <;> cases same
    apply stage.machine.spares_frames
    simp only [Arena.takeReturn] at taken
    split at taken
    next content found =>
      cases taken
      exact Arena.unwritten_set spared _ frame content _ found fun _ => rfl
    next => cases taken
  next =>
    rcases left with ⟨_, same⟩ | ⟨_, same⟩ <;> cases same
    exact stage.machine.spares_refl spared

theorem discreet_class_value (build : ClassTable → Value)
    (plain : ∀ table : ClassTable, table.Plain → (build table).Plain) :
    (read fun machine => build machine.classes).Discreet frame Value.Plain :=
  discreet_read _ fun stage sound => plain stage.machine.classes sound.plain.classes

theorem discreet_next_identity : nextIdentity.Discreet frame fun _ => True := by
  refine discreet_blind _ lawful_next_identity ?_
  rintro machine after (⟨_, same⟩ | ⟨_, same⟩) <;> cases same
  exact ⟨rfl, rfl, rfl⟩

theorem discreet_array (items : List Value) (plain : ∀ item ∈ items, item.Plain) :
    (array items).Discreet frame Value.Plain :=
  discreet_bind _ _ discreet_next_identity fun identity _ => discreet_class_value _ fun table tablePlain =>
    table.plain_array tablePlain identity items plain

theorem discreet_function (content : Function Value) (ordinary : content.Ordinary) :
    (function content).Discreet frame Value.Plain :=
  discreet_bind _ _ discreet_next_identity fun identity _ => discreet_class_value _ fun table tablePlain =>
    table.plain_function tablePlain identity content ordinary

theorem discreet_modify (change : Machine → Machine) (lawful : (modify change).Lawful fun _ => True)
    (blind : ∀ machine, (change machine).frames = machine.frames ∧ (change machine).ready = machine.ready ∧
      (change machine).asyncFrames = machine.asyncFrames) : (modify change).Discreet frame fun _ => True := by
  refine discreet_blind _ lawful ?_
  rintro machine after (⟨_, same⟩ | ⟨_, same⟩) <;> cases same
  exact blind machine

theorem discreet_write_line (content : String) : (writeLine content).Discreet frame fun _ => True :=
  discreet_modify _ (lawful_write_line content) fun _ => ⟨rfl, rfl, rfl⟩

theorem discreet_halt : halt.Discreet frame fun _ => True := discreet_modify _ lawful_halt fun _ => ⟨rfl, rfl, rfl⟩

theorem discreet_update_runner (id : RunnerId) (change : Runner → Runner)
    (same : ∀ runner, (change runner).frame = runner.frame) :
    (modify (·.updateRunner id change)).Discreet frame fun _ => True :=
  discreet_modify _ (lawful_update_runner id change same) fun _ => ⟨rfl, rfl, rfl⟩

theorem discreet_record (id : RunnerId) (value : Option Value) : (record id value).Discreet frame fun _ => True := by
  cases value with
  | none => exact discreet_pure () trivial
  | some value => exact discreet_update_runner id _ fun _ => rfl

theorem discreet_is_unwinding : (isUnwinding frame).Discreet frame fun _ => True := by
  refine discreet_blind _ (lawful_is_unwinding frame) fun machine after left => ?_
  suffices same : after = machine from same ▸ ⟨rfl, rfl, rfl⟩
  unfold isUnwinding at left
  rw [halted_then] at left
  split at left
  · rcases left with ⟨_, same⟩ | ⟨_, same⟩ <;> cases same
    rfl
  · rcases leaves_bind _ _ machine after left with failed | ⟨function, middle, asked, rest⟩
    · exact ask_leaves _ machine after failed
    · obtain rfl := ask_leaves _ machine middle (.inl ⟨function, asked⟩)
      cases function <;> rcases rest with ⟨_, same⟩ | ⟨_, same⟩ <;> cases same <;> rfl

theorem discreet_consume (task : TaskId) :
    (consumeTask task).Discreet frame fun value => ∀ result, value = some result → result.Plain := by
  refine discreet_blind _ (lawful_consume task) fun machine after left => ?_
  unfold consumeTask at left
  split at left <;> rcases left with ⟨_, same⟩ | ⟨_, same⟩ <;> cases same <;> exact ⟨rfl, rfl, rfl⟩

theorem discreet_spawn_blocking (outcome : Scalar) (milliseconds : Nat) :
    (spawnBlocking (some outcome) milliseconds).Discreet frame Value.Plain := by
  refine discreet_blind _ (lawful_spawn_blocking outcome milliseconds) fun machine after left => ?_
  obtain ⟨promise, reached, spawned⟩ := spawn_blocking_total (some outcome) milliseconds machine
  rw [spawned] at left
  rcases left with ⟨_, same⟩ | ⟨_, same⟩ <;> cases same
  obtain ⟨_, _, _, _, _, _, rfl, _⟩ := spawn_blocking_done (some outcome) milliseconds promise machine after spawned
  exact ⟨rfl, rfl, rfl⟩

-- The frame that waits for the body is a new one.
theorem discreet_spawn_async (name : String) (lines : List Node) (arguments : Bindings) (caller : FrameId)
    (plain : arguments.All Value.Plain) : (spawnAsync name lines arguments caller).Discreet frame Value.Plain := by
  intro spared stage apart
  refine ⟨lawful_spawn_async name lines arguments caller plain stage apart.inside.sound, fun after left => ?_⟩
  rcases spawn_async_leaves name lines arguments caller stage.machine after left with rfl | ⟨promise, spawned⟩
  · exact ⟨rfl, Arena.unwritten_refl spared _, fun _ member _ => member⟩
  · obtain ⟨id, frames, pushed, _, rfl⟩ := spawn_async_done name lines arguments caller promise stage.machine after spawned
    have ledger := apart.inside.sound.ledger
    obtain ⟨fresh, _⟩ := Arena.push_found _ frames _ caller id true arguments ledger pushed
    refine ⟨rfl, Arena.unwritten_push spared _ frames _ caller id true arguments ledger pushed, ?_⟩
    intro other member isSpared
    rcases List.mem_append.mp member with old | new
    · exact old
    · obtain rfl := List.mem_singleton.mp new
      have live := stage.apart_live apart other isSpared
      simp [Arena.isLive, fresh] at live

end Exec

end CoopScript
