import CoopScript.Proofs.Scope.Guard

set_option autoImplicit false
namespace CoopScript

-- An engine whose nodes, natives and bodies write in their own frames only.
structure Engine.Discreet (engine : Engine) : Prop where
  lawful : engine.Lawful
  evaluate : ∀ node frame, (engine.evaluate node frame).Discreet frame Value.Plain
  execute : ∀ node frame, (engine.execute node frame).Discreet frame fun _ => True
  native : ∀ code invocation, (∃ builtin, code = .builtin builtin) → invocation.Plain →
    (engine.native code invocation).Discreet invocation.frame Value.Plain
  body : ∀ lines frame, (engine.body lines frame).Discreet frame
    fun result => ∀ value, result = some value → value.Plain

theorem Exec.leaves_enclosed {α β γ : Type} (body : Exec α) (close : Exec β) (rest : Except Failure α → β → Exec γ)
    (opened after : Machine)
    (left : ((do let outcome ← body.attempt; let result ← close; rest outcome result) opened).Leaves after) :
    ∃ middle, (body opened).Leaves middle ∧ ((close middle).Leaves after ∨ ∃ outcome result closed,
      close middle = .done result closed ∧ (rest outcome result closed).Leaves after) := by
  have closes : ∀ outcome middle, (body opened).Leaves middle → body.attempt opened = .done outcome middle →
      ∃ middle, (body opened).Leaves middle ∧ ((close middle).Leaves after ∨ ∃ outcome result closed,
        close middle = .done result closed ∧ (rest outcome result closed).Leaves after) := by
    intro outcome middle leaves attempted
    rw [bind_done _ _ opened middle outcome attempted] at left
    rcases leaves_bind _ _ middle after left with failed | ⟨result, closed, closes, done⟩
    · exact ⟨middle, leaves, .inl failed⟩
    · exact ⟨middle, leaves, .inr ⟨outcome, result, closed, closes, done⟩⟩
  cases ran : body opened with
  | done value middle =>
    rw [← ran]
    exact closes (.ok value) middle (.inl ⟨value, ran⟩) (by simp only [attempt, ran])
  | failed failure middle =>
    rw [← ran]
    exact closes (.error failure) middle (.inr ⟨failure, ran⟩) (by simp only [attempt, ran])
  | outOfFuel =>
    rw [bind_exhausted _ _ opened (by simp only [attempt, ran])] at left
    rcases left with ⟨_, same⟩ | ⟨_, same⟩ <;> cases same

namespace Exec
variable (spared : FrameId → Prop)

theorem release_spares (frame : FrameId) (machine after : Machine) (left : (releaseFrame frame machine).Leaves after) :
    machine.Spares spared after := by
  have shrinks := Arena.release_chain_shrinks machine.frames machine.frames.reach frame
  unfold releaseFrame at left
  generalize released : machine.frames.release frame = result at left
  rw [show machine.frames.releaseChain machine.frames.reach frame = _ from released] at shrinks
  obtain ⟨frames, fault⟩ := result
  have spares := machine.spares_frames spared frames (Arena.unwritten_shrinks spared _ frames shrinks)
  cases fault <;> rcases left with ⟨_, same⟩ | ⟨_, same⟩ <;> cases same <;> exact spares

theorem created_spares (lines : List Node) (frame : FrameId) (id : RunnerId) (machine after : Machine)
    (created : createRunner lines frame machine = .done id after) : machine.Spares spared after := by
  obtain ⟨frames, functionFrame, retained, _, _, rfl⟩ := create_runner_done lines frame id machine after created
  exact ⟨rfl, Arena.unwritten_retain spared machine.frames frames frame retained, fun _ member _ => member⟩

theorem finish_spares (id : RunnerId) (machine after : Machine) (left : (finishRunner id machine).Leaves after) :
    machine.Spares spared after := by
  unfold finishRunner at left
  rw [read_then] at left
  cases known : machine.runner? id with
  | none =>
    rw [known] at left
    rcases left with ⟨_, same⟩ | ⟨_, same⟩ <;> cases same
    exact machine.spares_refl spared
  | some runner =>
    rw [known] at left
    simp only [modify_then] at left
    have released : (releaseFrame runner.frame
        { machine with runners := Machine.swapErase id machine.runners }).Leaves after := by
      rcases leaves_bind _ _ _ after left with failed | ⟨_, middle, done, rest⟩
      · exact failed
      · rcases rest with ⟨_, same⟩ | ⟨_, same⟩ <;> cases same
        exact .inl ⟨(), done⟩
    obtain ⟨ready, frames, waiting⟩ := release_spares spared runner.frame _ after released
    exact ⟨ready, frames, waiting⟩

end Exec

namespace Stage
variable {spared : FrameId → Prop} (stage : Stage)

theorem within_firm (inner : Stage) (within : stage.Within inner) (id : FrameId) (member : id ∈ stage.firm) :
    id ∈ inner.firm := by
  unfold firm at member ⊢
  simp only [List.mem_cons, List.mem_append, List.mem_map] at member ⊢
  rcases member with root | (⟨entry, registered, same⟩ | ⟨call, inProgress, same⟩) | held
  · exact .inl root
  · exact .inr (.inl (.inl ⟨entry, within.registered entry registered, same⟩))
  · obtain ⟨later, laterInProgress, sameOwner⟩ :=
      List.mem_map.mp (within.calls.subset (List.mem_map_of_mem inProgress))
    exact .inr (.inl (.inr ⟨later, laterInProgress, (congrArg Prod.fst sameOwner).trans same⟩))
  · exact .inr (.inr (within.held ▸ held))

-- Spared frames are still in use after something more is begun.
theorem kept_opened (inner : Stage) (sound : stage.Sound) (opened : Step stage inner) (within : stage.Within inner)
    (kept : ∀ id, spared id → ∃ owner ∈ stage.firm, stage.machine.frames.Encloses id owner) (id : FrameId)
    (isSpared : spared id) : ∃ owner ∈ inner.firm, inner.machine.frames.Encloses id owner := by
  obtain ⟨owner, firm, encloses⟩ := kept id isSpared
  have steady := steady_stride stage stage inner sound (step_sound stage inner sound opened) (within_refl stage) within
    (step_lasting stage inner sound opened)
  exact ⟨owner, stage.within_firm inner within owner firm, (steady.around owner firm id).mp encloses⟩

-- A function's body stays apart when something is begun in its own frame.
theorem apart_put_opened {frame : FrameId} (apart : stage.Apart spared frame) (opened : Machine)
    (step : Step stage (stage.put opened)) (within : stage.Within (stage.put opened))
    (spares : stage.machine.Spares spared opened) : (stage.put opened).Apart spared frame := by
  have sound := apart.inside.sound
  refine ⟨⟨step_sound stage _ sound step, stage.within_firm _ within frame apart.inside.member, fun later found => ?_⟩,
    apart.own, stage.kept_opened _ sound step within apart.kept,
    fun id member isSpared => apart.waiting id (spares.waiting id member isSpared) isSpared⟩
  obtain ⟨content, known, function⟩ := stage.inside_found frame apart.inside
  exact (step_lasting stage _ sound step frame content later known found).2.trans function

end Stage

namespace Engine
variable (engine : Engine) (discreet : engine.Discreet) {spared : FrameId → Prop} {frame : FrameId}
include discreet

theorem discreet_execute_line (node : Node) : (engine.executeLine node frame).Discreet frame fun _ => True :=
  Exec.discreet_map_failure (trace node) _ (Failure.traced_cause node) (discreet.execute node frame)

-- The runner's lines are run in its own frame.
theorem step_guards (id : RunnerId) (stage : Stage) (apart : stage.Apart spared frame)
    (listed : (id, frame) ∈ stage.machine.registered) :
    stage.Guards spared (Sum.elim (fun _ => True) fun _ => True) (engine.step id) := by
  have stop : Exec.Discreet frame (Sum.elim (fun _ => True) fun _ => True)
      (Pure.pure (.inr ()) : Exec (Unit ⊕ Unit)) := Exec.discreet_pure _ trivial
  have sound := apart.inside.sound
  refine stage.guards_read sound (·.halted) _ (stage.guards_read sound (·.runnerReturned id) _ ?_)
  split
  · exact stop spared stage apart
  refine stage.guards_read sound (·.runner? id) _ ?_
  obtain ⟨⟨name, own⟩, member, same⟩ := List.mem_map.mp listed
  obtain ⟨rfl, rfl⟩ := Prod.mk.inj same
  rw [stage.machine.runner_listed name own apart.inside.sound.numbered.distinct member]
  simp only
  split
  · exact Exec.discreet_bind _ _ (Exec.discreet_update_runner name (fun runner => { runner with finished := true })
      fun _ => rfl) (fun _ _ => stop) spared stage apart
  · next node rest _ =>
    refine Exec.discreet_bind _ _ (Exec.discreet_update_runner name (fun runner => { runner with lines := rest })
      fun _ => rfl) (fun _ _ => ?_) spared stage apart
    refine Exec.discreet_bind _ _ (engine.discreet_execute_line discreet node) fun value _ => ?_
    exact Exec.discreet_bind _ _ (Exec.discreet_record name value) fun _ _ => Exec.discreet_pure _ trivial

theorem drive_guards (id : RunnerId) (stage : Stage) (apart : stage.Apart spared frame)
    (listed : (id, frame) ∈ stage.machine.registered) : stage.Guards spared (fun _ => True) (engine.drive id) := by
  unfold drive
  generalize engine.fuel = fuel
  induction fuel generalizing stage with
  | zero => exact Exec.discreet_exhausted spared stage apart
  | succ fuel ih =>
    rw [Exec.iterate_unrolled]
    refine stage.guards_bind apart _ _ (engine.step_guards discreet id stage apart listed) ?_
    intro result machine _ reaches _ machineApart
    cases result with
    | inl _ => exact ih (stage.put machine) machineApart (reaches.registered.symm.subset listed)
    | inr _ => exact Exec.discreet_pure _ trivial spared _ machineApart

theorem discreet_run_block (lines : List Node) : (engine.runBlock lines frame).Discreet frame fun _ => True := by
  intro spared stage apart
  have sound := apart.inside.sound
  refine ⟨engine.lawful_run_block discreet.lawful lines frame stage sound, fun after left => ?_⟩
  unfold runBlock at left
  rcases Exec.create_runner_cases lines frame stage sound with ⟨id, opened, created⟩ | failed
  · rw [Exec.bind_done _ _ _ opened id created] at left
    have registered := Exec.registered_opened lines frame id stage.machine opened created
    have step : Step stage (stage.put opened) := .openBlock stage lines frame id opened created
    have within : stage.Within (stage.put opened) :=
      ⟨List.suffix_refl _, rfl, fun entry member => registered ▸ List.mem_append_left _ member⟩
    have innerApart := stage.apart_put_opened apart opened step within
      (Exec.created_spares spared lines frame id stage.machine opened created)
    have drives := engine.drive_guards discreet id (stage.put opened) innerApart (by simp [Stage.put, registered])
    obtain ⟨middle, drove, closing⟩ := Exec.leaves_enclosed _ _ _ _ after left
    have driven := stage.machine.spares_trans spared opened middle (Stage.apart_live _ innerApart)
      (Exec.created_spares spared lines frame id stage.machine opened created) (drives.2 middle drove)
    have middleLive := Stage.apart_live _ (Stage.guards_apart _ innerApart _ middle drives drove)
    have closed : ∀ last, (Exec.finishRunner id middle).Leaves last → stage.machine.Spares spared last := fun last left =>
      Machine.spares_trans spared _ middle last middleLive driven (Exec.finish_spares spared id middle last left)
    rcases closing with failed | ⟨outcome, result, last, closing, rest⟩
    · exact closed after failed
    · have same : after = last := by
        cases outcome <;> rcases rest with ⟨_, same⟩ | ⟨_, same⟩ <;> cases same <;> rfl
      exact same ▸ closed last (.inl ⟨result, closing⟩)
  · rw [Exec.bind_failed _ _ _ _ _ failed] at left
    rcases left with ⟨_, same⟩ | ⟨_, same⟩ <;> cases same
    exact stage.machine.spares_refl spared

theorem discreet_run_body (lines : List Node) :
    (engine.runBody lines frame).Discreet frame fun result => ∀ value, result = some value → value.Plain :=
  Exec.discreet_bind _ _ (engine.discreet_run_block discreet lines) fun _ _ => Exec.discreet_take_return

theorem run_frame_guards (name : String) (lines : List Node) (task : Option TaskId) (calls : List Call)
    (held : List FrameId) (machine : Machine)
    (apart : (Stage.mk (⟨frame, task, false⟩ :: calls) held machine).Apart spared frame) :
    (Stage.mk (⟨frame, task, false⟩ :: calls) held machine).Guards spared Value.Plain
      (engine.runFrame name lines frame) := by
  have sound := apart.inside.sound
  refine ⟨engine.run_frame_follows discreet.lawful name lines frame frame task calls held machine sound, ?_⟩
  intro after left
  change (engine.runFrame name lines frame machine).Leaves after at left
  show machine.Spares spared after
  by_cases deep : machine.config.depthLimit ≤ machine.depth
  · rw [engine.run_frame_refused name lines frame machine deep] at left
    rcases left with ⟨_, same⟩ | ⟨_, same⟩ <;> cases same
    exact machine.spares_refl spared
  · rw [engine.run_frame_runs name lines frame machine (Nat.lt_of_not_le deep)] at left
    have innerApart : (Stage.mk (⟨frame, task, true⟩ :: calls) held { machine with depth := machine.depth + 1 }).Apart
        spared frame :=
      ⟨⟨step_sound _ _ sound (.beginRun frame task calls held machine), apart.inside.member, apart.inside.function⟩,
        apart.own, apart.kept, apart.waiting⟩
    have runs := (discreet.body lines frame spared _ innerApart).2
    have closed : ∀ middle, (engine.body lines frame { machine with depth := machine.depth + 1 }).Leaves middle →
        machine.Spares spared { middle with depth := middle.depth - 1 } := fun middle leaves =>
      ⟨(runs middle leaves).ready, (runs middle leaves).frames, (runs middle leaves).waiting⟩
    cases ran : engine.body lines frame { machine with depth := machine.depth + 1 } with
    | done result middle =>
      rw [ran] at left closed
      rcases left with ⟨_, same⟩ | ⟨_, same⟩ <;> cases same
      exact closed middle (.inl ⟨result, rfl⟩)
    | failed failure middle =>
      rw [ran] at left closed
      rcases left with ⟨_, same⟩ | ⟨_, same⟩ <;> cases same
      exact closed middle (.inr ⟨failure, rfl⟩)
    | outOfFuel =>
      rw [ran] at left
      rcases left with ⟨_, same⟩ | ⟨_, same⟩ <;> cases same

-- A call spares whatever its own frame will keep in use.
theorem invoke_script_spares (name : String) (lines : List Node) (arguments : Bindings) (caller : FrameId)
    (plain : arguments.All Value.Plain) (stage : Stage) (sound : stage.Sound)
    (live : ∀ id, spared id → stage.machine.frames.isLive id = true)
    (kept : ∀ callee opened, Exec.pushFrame caller true arguments stage.machine = .done callee opened →
      ∀ id, spared id → ∃ owner ∈ (Stage.mk (⟨callee, none, false⟩ :: stage.calls) stage.held opened).firm,
        opened.frames.Encloses id owner)
    (waiting : ∀ id ∈ stage.machine.asyncFrames, ¬ spared id) (after : Machine)
    (left : (engine.invokeScript name lines arguments caller stage.machine).Leaves after) :
    stage.machine.Spares spared after := by
  unfold invokeScript at left
  cases pushed : Exec.pushFrame caller true arguments stage.machine with
  | outOfFuel => unfold Exec.pushFrame Exec.changeFrames at pushed; split at pushed <;> cases pushed
  | failed failure machine =>
    rw [Exec.bind_failed _ _ _ _ _ pushed] at left
    unfold Exec.pushFrame Exec.changeFrames at pushed
    split at pushed <;> cases pushed
    rcases left with ⟨_, same⟩ | ⟨_, same⟩ <;> cases same
    exact stage.machine.spares_refl spared
  | done callee opened =>
    rw [Exec.bind_done _ _ _ opened callee pushed] at left
    have innerSound := step_sound _ _ sound (.openCall stage caller callee arguments opened plain pushed)
    have keptInner := kept callee opened pushed
    obtain ⟨frames, framesPushed, rfl⟩ := Exec.push_frame_done caller callee true arguments _ opened pushed
    obtain ⟨fresh, _, _, read⟩ := Arena.push_found _ frames _ caller callee true arguments sound.ledger framesPushed
    have opens : stage.machine.Spares spared { stage.machine with frames := frames } :=
      stage.machine.spares_frames spared frames
        (Arena.unwritten_push spared _ frames _ caller callee true arguments sound.ledger framesPushed)
    have own : ¬ spared callee := by
      intro isSpared
      have alive := live callee isSpared
      simp [Arena.isLive, fresh] at alive
    have innerApart : Stage.Apart spared callee
        ⟨⟨callee, none, false⟩ :: stage.calls, stage.held, { stage.machine with frames := frames }⟩ := by
      refine ⟨⟨innerSound, by simp [Stage.firm], fun content found => ?_⟩, own, keptInner, waiting⟩
      rw [read, if_pos rfl] at found
      cases found
      rfl
    have guards := engine.run_frame_guards discreet name lines none stage.calls stage.held _ innerApart
    obtain ⟨middle, ran, closing⟩ := Exec.leaves_enclosed _ _ _ _ after left
    have spares := stage.machine.spares_trans spared _ middle (Stage.apart_live _ innerApart) opens (guards.2 middle ran)
    have middleLive := Stage.apart_live _ (Stage.guards_apart _ innerApart _ middle guards ran)
    have closed : ∀ last, (Exec.releaseFrame callee middle).Leaves last → stage.machine.Spares spared last :=
      fun last released => stage.machine.spares_trans spared middle last middleLive spares
        (Exec.release_spares spared callee middle last released)
    rcases closing with failed | ⟨outcome, result, last, released, rest⟩
    · exact closed after failed
    · have same : after = last := by
        cases outcome <;> rcases rest with ⟨_, same⟩ | ⟨_, same⟩ <;> cases same <;> rfl
      exact same ▸ closed last (.inl ⟨result, released⟩)

theorem discreet_invoke_script (name : String) (lines : List Node) (arguments : Bindings) (caller : FrameId)
    (plain : arguments.All Value.Plain) :
    (engine.invokeScript name lines arguments caller).Discreet frame Value.Plain := by
  intro spared stage apart
  have sound := apart.inside.sound
  refine ⟨engine.lawful_invoke_script discreet.lawful name lines arguments caller plain stage sound, ?_⟩
  refine engine.invoke_script_spares discreet name lines arguments caller plain stage sound (stage.apart_live apart)
    (fun callee opened pushed => ?_) apart.waiting
  have registered : opened.registered = stage.machine.registered := by
    obtain ⟨frames, _, rfl⟩ := Exec.push_frame_done caller callee true arguments _ opened pushed
    rfl
  exact stage.kept_opened _ sound (.openCall stage caller callee arguments opened plain pushed)
    ⟨List.suffix_cons _ _, rfl, fun entry member => registered ▸ member⟩ apart.kept

section Tiers
variable (stage : Stage) (apart : stage.Apart spared frame)
include apart

-- A body that waits is run in a frame that is no spared one.
theorem start_body_spares (task : TaskId) (name : String) (lines : List Node) (place : FrameId) (rest : List Microtask)
    (next : stage.machine.microtasks = .asyncBody task name lines place :: rest) (after : Machine)
    (left : (engine.runAsyncBody task name lines place { stage.machine with microtasks := rest }).Leaves after) :
    stage.machine.Spares spared after := by
  obtain ⟨calls, held, machine⟩ := stage
  have sound := apart.inside.sound
  have step := Step.startBody calls held machine task name lines place rest next
  have within : (Stage.mk calls held machine).Within ⟨⟨place, some task, false⟩ :: calls, held,
      { machine with microtasks := rest, asyncFrames := machine.asyncFrames.filter (· ≠ place) }⟩ :=
    ⟨List.suffix_cons _ _, rfl, fun _ member => member⟩
  have waits : place ∈ machine.asyncFrames := by
    have listed : machine.asyncFrames = machine.microtasks.filterMap Microtask.frame? := sound.waiting
    change machine.microtasks = _ at next
    rw [listed, next]
    exact List.mem_cons_self
  unfold runAsyncBody at left
  rw [Exec.modify_then] at left
  have innerApart : Stage.Apart spared place ⟨⟨place, some task, false⟩ :: calls, held,
      { machine with microtasks := rest, asyncFrames := machine.asyncFrames.filter (· ≠ place) }⟩ :=
    ⟨⟨step_sound _ _ sound step, by simp [Stage.firm], sound.bodies place waits⟩, apart.waiting place waits,
      Stage.kept_opened _ _ sound step within apart.kept,
      fun id member => apart.waiting id (List.mem_of_mem_filter member)⟩
  have guards := engine.run_frame_guards discreet name lines (some task) calls held _ innerApart
  obtain ⟨middle, ran, closing⟩ := Exec.leaves_enclosed _ _
    (fun outcome _ => do let value ← Exec.ofOutcome outcome; Exec.settleTask task value) _ after left
  obtain ⟨ready, frames, waiting⟩ := guards.2 middle ran
  have spares : machine.Spares spared middle :=
    ⟨ready, frames, fun id member isSpared => List.mem_of_mem_filter (waiting id member isSpared)⟩
  have middleLive := Stage.apart_live _ (Stage.guards_apart _ innerApart _ middle guards ran)
  have closed : ∀ last, (Exec.releaseFrame place middle).Leaves last → machine.Spares spared last :=
    fun last released => machine.spares_trans spared middle last middleLive spares
      (Exec.release_spares spared place middle last released)
  rcases closing with failed | ⟨outcome, result, last, released, settling⟩
  · exact closed after failed
  · have released := closed last (.inl ⟨result, released⟩)
    cases outcome with
    | error failure =>
      rcases settling with ⟨_, same⟩ | ⟨_, same⟩ <;> cases same
      exact released
    | ok value =>
      obtain ⟨ready, frames, waiting⟩ := released
      change (Exec.settleTask task value last).Leaves after at settling
      unfold Exec.settleTask at settling
      split at settling <;> rcases settling with ⟨_, same⟩ | ⟨_, same⟩ <;> cases same <;> exact ⟨ready, frames, waiting⟩

theorem next_microtask_guards (microtask : Microtask) (rest : List Microtask)
    (next : stage.machine.microtasks = microtask :: rest) :
    stage.Guards spared (fun _ => True)
      (Exec.modify (fun machine => { machine with microtasks := rest }) >>= fun _ => engine.runMicrotask microtask) := by
  have sound := apart.inside.sound
  refine ⟨engine.next_microtask_follows discreet.lawful stage sound microtask rest next, fun after left => ?_⟩
  rw [Exec.modify_then] at left
  rcases sound.plain.microtasks microtask (next ▸ List.mem_cons_self) with
    ⟨task, name, lines, place, rfl⟩ | ⟨task, value, rfl⟩
  · exact engine.start_body_spares discreet stage apart task name lines place rest next after left
  · change (Exec.settleTask task (stage.machine.classes.scalar value)
      { stage.machine with microtasks := rest }).Leaves after at left
    unfold Exec.settleTask at left
    split at left <;> rcases left with ⟨_, same⟩ | ⟨_, same⟩ <;> cases same <;>
      exact ⟨rfl, Arena.unwritten_refl spared _, fun _ member _ => member⟩

end Tiers

theorem discreet_drain_step (report : TickReport) :
    (engine.drainStep report).Discreet frame (Sum.elim (fun _ => True) fun _ => True) := by
  intro spared stage apart
  refine stage.guards_read apart.inside.sound (·.microtasks) _ ?_
  cases queue : stage.machine.microtasks with
  | nil => exact Exec.discreet_pure _ trivial spared stage apart
  | cons microtask rest =>
    simp only
    rw [Exec.modify_assoc]
    refine stage.guards_bind apart _ _ (engine.next_microtask_guards discreet stage apart microtask rest queue) ?_
    intro _ machine _ _ _ machineApart
    refine (stage.put machine).guards_read machineApart.inside.sound (·.halted) _ ?_
    split <;> exact Exec.discreet_pure _ trivial spared _ machineApart

theorem discreet_drain_microtasks (report : TickReport) :
    (engine.drainMicrotasks report).Discreet frame fun _ => True :=
  Exec.discreet_iterate _ (engine.discreet_drain_step discreet) engine.fuel report

omit discreet in
theorem discreet_service_events (report : TickReport) :
    (engine.serviceEvents report).Discreet frame fun _ => True := by
  intro spared stage apart
  have sound := apart.inside.sound
  refine ⟨engine.lawful_service_events report stage sound, fun after left => ?_⟩
  rcases engine.service_events_cases stage sound report with ⟨_, _, done⟩ | ⟨id, status, served, only, serving, done⟩
  · rw [done] at left
    rcases left with ⟨_, same⟩ | ⟨_, same⟩ <;> cases same
    exact stage.machine.spares_refl spared
  · rw [done] at left
    rcases left with ⟨_, same⟩ | ⟨_, same⟩ <;> cases same
    obtain ⟨known, polled, same, polledHere, _⟩ := Exec.service_poll_done engine id stage.machine only
    rw [serving] at same
    cases same
    cases polledHere <;> exact ⟨rfl, Arena.unwritten_refl spared _, fun _ member _ => member⟩

theorem discreet_await_step (task : TaskId) (idle : Nat) :
    (engine.awaitStep task idle).Discreet frame (Sum.elim (fun _ => True) Value.Plain) := by
  intro spared stage apart
  refine ⟨engine.lawful_await_step discreet.lawful task idle stage apart.inside.sound, ?_⟩
  refine stage.spares_bind apart _ _ (Exec.discreet_consume task spared stage apart) ?_
  intro value machine _ _ _ machineApart
  cases value with
  | some value =>
    rintro after (⟨_, same⟩ | ⟨_, same⟩) <;> cases same
    exact machine.spares_refl spared
  | none =>
    intro after left
    simp only at left
    rw [Exec.halted_then] at left
    split at left
    · rcases left with ⟨_, same⟩ | ⟨_, same⟩ <;> cases same
      exact machine.spares_refl spared
    · refine (stage.put machine).spares_bind machineApart _ _
        (engine.discreet_drain_microtasks discreet .empty spared _ machineApart) ?_ after left
      intro drained middle _ _ _ middleApart
      refine Stage.spares_bind _ middleApart _ _ (engine.discreet_service_events drained spared _ middleApart) ?_
      intro serviced served _ _ _ _ after left
      -- What is left to do looks at what the pass has found and may let time go by.
      have waited : served.Spares spared (served.pass (1000 * served.config.pollInterval)) :=
        ⟨rfl, Arena.unwritten_refl spared _, fun _ member _ => member⟩
      cases waiting : serviced.isOnlyWaiting with
      | true =>
        simp only [waiting, serviced.waiting_busy waiting, Bool.not_false, if_true] at left
        rcases left with ⟨_, same⟩ | ⟨_, same⟩ <;> cases same
        exact waited
      | false =>
        simp only [waiting, Bool.false_eq_true, if_false] at left
        suffices same : after = served from same ▸ served.spares_refl spared
        split at left
        · rcases left with ⟨_, same⟩ | ⟨_, same⟩ <;> cases same
          rfl
        · rw [Exec.read_then] at left
          split at left <;> rcases left with ⟨_, same⟩ | ⟨_, same⟩ <;> cases same <;> rfl

theorem discreet_await (task : TaskId) : (engine.await task).Discreet frame Value.Plain :=
  Exec.discreet_iterate _ (engine.discreet_await_step discreet task) engine.fuel 0

end Engine

end CoopScript
